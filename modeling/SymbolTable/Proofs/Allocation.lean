/-
What a resolution allocates.

A name and what encloses it form a chain that ends at the root package.
Resolving the name enters the links of the chain that are missing, the
outermost first: each gets the next symbol and the next type (`Enrols`).
Apart from that, a new class at the top level is listed in its package, and
nothing else in the store changes (`Lists`).
-/
import SymbolTable.Proofs.Definitions

namespace SymbolTable

/-! ## The chain of a name -/

/-- A name and what encloses it, the innermost first. A class is cut at its last `$` as long as
there is one; then come its package and the packages around that. -/
inductive Request.Chain : Request → List Request → Prop
  | nested {flat outer inner : Name} {l : List Request} (cut : flat.Cut '$' outer inner)
      (rest : Chain (.cls outer) l) : Chain (.cls flat) (.cls flat :: l)
  | top {flat full simple : Name} {l : List Request} (plain : '$' ∉ flat.toList)
      (inside : flat.InPackage full simple) (rest : Chain (.package full) l) :
      Chain (.cls flat) (.cls flat :: l)
  | package {full outer simple : Name} {l : List Request} (named : full ≠ "")
      (inside : full.InPackage outer simple) (rest : Chain (.package outer) l) :
      Chain (.package full) (.package full :: l)
  | root : Chain (.package "") [.package ""]

namespace Request

theorem exists_chain_package (full : Name) : ∃ l, (Request.package full).Chain l := by
  by_cases hne : full = ""
  · exact hne ▸ ⟨_, .root⟩
  · obtain ⟨l, hl⟩ := exists_chain_package full.packagePart
    exact ⟨_, .package hne (Name.inPackage_iff.2 ⟨rfl, rfl⟩) hl⟩
termination_by full.toList.length
decreasing_by exact Name.packagePart_lt hne

theorem exists_chain_cls (flat : Name) : ∃ l, (Request.cls flat).Chain l := by
  by_cases hnested : '$' ∈ flat.toList
  · obtain ⟨outer, inner, hcut⟩ := Name.exists_cut hnested
    obtain ⟨l, hl⟩ := exists_chain_cls outer
    exact ⟨_, .nested hcut hl⟩
  · obtain ⟨l, hl⟩ := exists_chain_package flat.packagePart
    exact ⟨_, .top hnested (Name.inPackage_iff.2 ⟨rfl, rfl⟩) hl⟩
termination_by flat.toList.length
decreasing_by exact hcut.shorter

theorem exists_chain (r : Request) : ∃ l, r.Chain l := by
  cases r with
  | cls flat => exact exists_chain_cls flat
  | package full => exact exists_chain_package full

/-- The links of a chain are around the name it starts from. -/
theorem Chain.enclosedBy {r q : Request} {l : List Request} (h : r.Chain l) (hq : q ∈ l) :
    r.EnclosedBy q := by
  induction h with
  | @nested flat outer inner l cut rest ih =>
    rcases List.mem_cons.1 hq with rfl | hq
    · exact .refl
    · exact .head (parent?_nested (by rw [cut.enclosing, List.head?_cons])) (ih hq)
  | @top flat full simple l plain inside rest ih =>
    rcases List.mem_cons.1 hq with rfl | hq
    · exact .refl
    · obtain ⟨rfl, -⟩ := Name.inPackage_iff.1 inside
      exact .head (parent?_top (Name.enclosing_of_notMem plain)) (ih hq)
  | @package full outer simple l named inside rest ih =>
    rcases List.mem_cons.1 hq with rfl | hq
    · exact .refl
    · obtain ⟨rfl, -⟩ := Name.inPackage_iff.1 inside
      exact .head (parent?_package named) (ih hq)
  | root =>
    rw [List.mem_singleton.1 hq]

theorem Chain.cls_notMem {full flat : Name} {l : List Request} (h : (Request.package full).Chain l) :
    .cls flat ∉ l := by
  generalize hr : Request.package full = r at h
  induction h generalizing full with
  | nested _ _ _ => cases hr
  | top _ _ _ _ => cases hr
  | package _ _ _ ih => simpa using ih rfl
  | root => simp

def form : Request → TyForm
  | cls _ => .cls
  | package _ => .package

/-- The symbol that is entered under a name: a class that is pending and of which only the names
are known, or a package without members. -/
def symbol (q : Request) (id : SymbolId) (ty : TypeId) (owner : SymbolId) : Symbol :=
  match q with
  | cls flat => .entered q.simpleName flat ty owner
  | package full =>
    { modifiers := .empty, name := q.simpleName, owner := some owner, ty, sentinel := none,
      body := .package ⟨full, .members id, none⟩ }

end Request

namespace Store

variable {s s' s₀ : Store} {new chain : List Request}

/-! ## One entry after another -/

/-- The links of a chain that are not registered, the outermost first. -/
def missing (s : Store) (chain : List Request) : List Request :=
  (chain.filter fun q => (s.lookup? q).isNone).reverse

theorem mem_of_mem_missing {chain : List Request} {q : Request} (h : q ∈ s.missing chain) :
    q ∈ chain :=
  (List.mem_filter.1 (List.mem_reverse.1 h)).1

theorem missing_cons {q : Request} (h : s.lookup? q = none) (chain : List Request) :
    s.missing (q :: chain) = s.missing chain ++ [q] := by
  simp [missing, h]

theorem Filed.missing_eq_nil {predef : SymbolId} (h : s.Filed predef) {r : Request}
    {chain : List Request} (hr : (s.lookup? r).isSome) (hchain : r.Chain chain) :
    s.missing chain = [] := by
  rw [missing, List.reverse_eq_nil_iff, List.filter_eq_nil_iff]
  intro q hq
  have hsome := h.enclosing hr (hchain.enclosedBy hq)
  simpa using Option.isSome_iff_ne_none.1 hsome

/-- The store with a name more, below `owner`. -/
def withEntry (s : Store) (q : Request) (owner : SymbolId) : Store :=
  match q with
  | .cls flat => s.withClass q.simpleName flat owner
  | .package full => s.withPackage full owner

theorem symbol?_withEntry (s : Store) (q : Request) (owner id : SymbolId) :
    (s.withEntry q owner).symbol? id =
      if id = s.nextSymbol then some (q.symbol s.nextSymbol s.nextType owner) else s.symbol? id := by
  cases q with
  | cls flat => exact symbol?_withClass ..
  | package full => exact symbol?_withPackage ..

theorem type?_withEntry (s : Store) (q : Request) (owner : SymbolId) (ty : TypeId) :
    (s.withEntry q owner).type? ty =
      if ty = s.nextType then some ⟨q.form, some s.nextSymbol⟩ else s.type? ty := by
  cases q <;> exact type?_addType ..

theorem lookup?_withEntry (s : Store) (q r : Request) (owner : SymbolId) :
    (s.withEntry q owner).lookup? r = if r = q then some s.nextSymbol else s.lookup? r := by
  cases q with
  | cls flat => exact lookup?_withClass ..
  | package full => exact lookup?_withPackage ..

theorem package?_withEntry_cls (s : Store) (flat full : Name) (owner : SymbolId) :
    (s.withEntry (.cls flat) owner).package? full = s.package? full := rfl

theorem sizes_withEntry (s : Store) (q : Request) (owner : SymbolId) :
    (s.withEntry q owner).symbols.size = s.symbols.size + 1 ∧
      (s.withEntry q owner).types.size = s.types.size + 1 := by
  cases q <;> exact ⟨Array.size_push _, Array.size_push _⟩

/-- A symbol that is there may be changed before or after a name is entered. -/
theorem withEntry_update {x : SymbolId} (h : s.HasSymbol x) (q : Request) (owner : SymbolId)
    (f : Symbol → Symbol) : (s.update x f).withEntry q owner = (s.withEntry q owner).update x f := by
  have hsize : (s.symbols.modify x.index f).size = s.symbols.size := Array.size_modify
  have hpush : ∀ sym, (s.symbols.modify x.index f).push sym = (s.symbols.push sym).modify x.index f :=
    fun sym => (modify_push_of_lt h sym f).symm
  cases q with
  | cls flat =>
    simp [withEntry, withClass, extend, addType, addSymbol, insertClass, update, nextSymbol, nextType,
      hsize, hpush]
  | package full =>
    simp [withEntry, withPackage, addPackage_eq, extend, addType, addSymbol, insertPackage, update,
      nextSymbol, nextType, hsize, hpush]

/-- `s'` is `s` with the names of `new` entered, one after another, and nothing else changed. -/
structure Enrols (s : Store) (new : List Request) (s' : Store) : Prop where
  symbols : s'.symbols.size = s.symbols.size + new.length
  types : s'.types.size = s.types.size + new.length
  /-- The names are registered for the new symbols in order, and no others are. -/
  registers : ∀ (i : Nat) q, new[i]? = some q → s'.lookup? q = some ⟨s.symbols.size + i⟩
  others : ∀ q, q ∉ new → s'.lookup? q = s.lookup? q
  /-- A new symbol is below what directly encloses its name. -/
  entered : ∀ (i : Nat) q, new[i]? = some q → ∃ owner, q.parent?.bind s'.lookup? = some owner ∧
    s'.symbol? ⟨s.symbols.size + i⟩ =
      some (q.symbol ⟨s.symbols.size + i⟩ ⟨s.types.size + i⟩ owner) ∧
    s'.type? ⟨s.types.size + i⟩ = some ⟨q.form, some ⟨s.symbols.size + i⟩⟩
  symbol? : ∀ x, s.HasSymbol x → s'.symbol? x = s.symbol? x
  type? : ∀ ty, s.HasType ty → s'.type? ty = s.type? ty

theorem Enrols.nil (s : Store) : s.Enrols [] s :=
  ⟨rfl, rfl, by simp, fun _ _ => rfl, by simp, fun _ _ => rfl, fun _ _ => rfl⟩

theorem Enrols.hasSymbol_old (h : s.Enrols new s₀) {x : SymbolId} (hx : s.HasSymbol x) :
    s₀.HasSymbol x :=
  Nat.lt_of_lt_of_le hx (by rw [h.symbols]; exact Nat.le_add_right ..)

theorem Enrols.hasType_old (h : s.Enrols new s₀) {ty : TypeId} (hty : s.HasType ty) :
    s₀.HasType ty :=
  Nat.lt_of_lt_of_le hty (by rw [h.types]; exact Nat.le_add_right ..)

theorem Enrols.snoc (h : s.Enrols new s₀) {q : Request} {owner : SymbolId}
    (hfresh : s₀.lookup? q = none) (howner : q.parent?.bind s₀.lookup? = some owner) :
    s.Enrols (new ++ [q]) (s₀.withEntry q owner) := by
  have hid : s₀.nextSymbol = ⟨s.symbols.size + new.length⟩ := congrArg SymbolId.mk h.symbols
  have hty : s₀.nextType = ⟨s.types.size + new.length⟩ := congrArg TypeId.mk h.types
  have hkept : ∀ r x, s₀.lookup? r = some x → (s₀.withEntry q owner).lookup? r = some x := by
    intro r x hr
    have hne : r ≠ q := by
      rintro rfl
      simp [hfresh] at hr
    rw [lookup?_withEntry, if_neg hne, hr]
  have hparent : ∀ (r : Request) x, r.parent?.bind s₀.lookup? = some x →
      r.parent?.bind (s₀.withEntry q owner).lookup? = some x := by
    intro r x hr
    obtain ⟨p, hp, hx⟩ := Option.bind_eq_some_iff.1 hr
    exact Option.bind_eq_some_iff.2 ⟨p, hp, hkept p x hx⟩
  -- a name of the longer list is one of the shorter, or it is the last
  have hcases : ∀ (i : Nat) r, (new ++ [q])[i]? = some r →
      i < new.length ∧ new[i]? = some r ∨ i = new.length ∧ r = q := by
    intro i r hi
    grind
  constructor
  · rw [(sizes_withEntry ..).1, h.symbols, List.length_append, List.length_singleton, Nat.add_assoc]
  · rw [(sizes_withEntry ..).2, h.types, List.length_append, List.length_singleton, Nat.add_assoc]
  · intro i r hi
    rcases hcases i r hi with ⟨-, hi⟩ | ⟨rfl, rfl⟩
    · exact hkept _ _ (h.registers i r hi)
    · rw [lookup?_withEntry, if_pos rfl, hid]
  · intro r hr
    rw [List.mem_append, not_or, List.mem_singleton] at hr
    rw [lookup?_withEntry, if_neg hr.2, h.others r hr.1]
  · intro i r hi
    rcases hcases i r hi with ⟨hlt, hi⟩ | ⟨rfl, rfl⟩
    · obtain ⟨x, hx, hsym, htype⟩ := h.entered i r hi
      have hold := (hasSymbol_of_symbol? hsym).ne_next
      have hold' := (hasType_of_type? htype).ne_next
      refine ⟨x, hparent r x hx, ?_, ?_⟩
      · rw [symbol?_withEntry, if_neg hold, hsym]
      · rw [type?_withEntry, if_neg hold', htype]
    · refine ⟨owner, hparent r owner howner, ?_, ?_⟩
      · rw [symbol?_withEntry, ← hid, ← hty, if_pos rfl]
      · rw [type?_withEntry, ← hid, ← hty, if_pos rfl]
  · intro x hx
    rw [symbol?_withEntry, if_neg (h.hasSymbol_old hx).ne_next, h.symbol? x hx]
  · intro ty hty
    rw [type?_withEntry, if_neg (h.hasType_old hty).ne_next, h.type? ty hty]

theorem Enrols.hasSymbol (h : s.Enrols new s₀) (hreg : s.Registered) {q : Request} {x : SymbolId}
    (hq : s₀.lookup? q = some x) : s₀.HasSymbol x := by
  by_cases hmem : q ∈ new
  · obtain ⟨i, hi⟩ := List.mem_iff_getElem?.1 hmem
    obtain ⟨_, -, hsym, -⟩ := h.entered i q hi
    rw [h.registers i q hi, Option.some.injEq] at hq
    exact hq ▸ hasSymbol_of_symbol? hsym
  · rw [h.others q hmem] at hq
    exact h.hasSymbol_old (hreg.hasSymbol_lookup? hq)

/-- The next link of a chain is still missing when those around it have been entered. -/
theorem Enrols.next (h : s.Enrols (s.missing chain) s₀) {q : Request} {owner : SymbolId}
    (hq : s.lookup? q = none) (hnew : q ∉ chain) (howner : q.parent?.bind s₀.lookup? = some owner) :
    s.Enrols (s.missing (q :: chain)) (s₀.withEntry q owner) := by
  have hfresh : s₀.lookup? q = none := by rw [h.others q fun hm => hnew (mem_of_mem_missing hm), hq]
  rw [missing_cons hq]
  exact h.snoc hfresh howner

/-! ## Listing -/

/-- Of the classes that were entered, one at the top level becomes a member of its package, and
those nested in others of no scope. -/
inductive Lists (s₀ : Store) (new : List Request) : Store → Prop
  | nothing (nested : ∀ flat, .cls flat ∈ new → '$' ∈ flat.toList) : Lists s₀ new s₀
  | top {flat full simple : Name} {owner id : SymbolId} (mem : .cls flat ∈ new)
      (plain : '$' ∉ flat.toList) (inside : flat.InPackage full simple)
      (package : s₀.package? full = some owner) (cls : s₀.class? flat = some id) :
      Lists s₀ new (s₀.update owner (Symbol.mapMembers fun scope => scope.enter simple id))

/-- What asking for `r` makes of `s`: the missing links of its chain are entered, and then the
class at the top level is listed if it is one of them. -/
def Allocates (s : Store) (r : Request) (s' : Store) : Prop :=
  ∃ chain s₀, r.Chain chain ∧ s.Enrols (s.missing chain) s₀ ∧ s₀.Lists (s.missing chain) s'

theorem Filed.allocates {predef : SymbolId} (h : s.Filed predef) {r : Request}
    (hr : (s.lookup? r).isSome) : s.Allocates r s := by
  obtain ⟨chain, hchain⟩ := r.exists_chain
  refine ⟨chain, s, hchain, ?_, ?_⟩
  · rw [h.missing_eq_nil hr hchain]
    exact .nil s
  · rw [h.missing_eq_nil hr hchain]
    exact .nothing (by simp)

theorem Enrols.top {flat : Name} {owner : SymbolId}
    (h : s.Enrols (s.missing chain) s₀) (hchain : (Request.package flat.packagePart).Chain chain)
    (hnew : s.class? flat = none) (hplain : '$' ∉ flat.toList)
    (howner : s₀.package? flat.packagePart = some owner) :
    s.Allocates (.cls flat) (s₀.withTopClass flat owner) := by
  have henclosing := Name.enclosing_of_notMem hplain
  have hparent := Request.parent?_top henclosing
  have hentry := h.next (q := .cls flat) hnew hchain.cls_notMem
    (by rw [hparent, Option.bind_some]; exact howner)
  have htop : s₀.withTopClass flat owner = (s₀.withEntry (.cls flat) owner).update owner
      (Symbol.mapMembers fun scope => scope.enter (flat.lastPart '.') s₀.nextSymbol) := by
    rw [withTopClass, withEntry, Request.simpleName_top henclosing]
  have hinside : flat.InPackage flat.packagePart (flat.lastPart '.') :=
    Name.inPackage_iff.2 ⟨rfl, rfl⟩
  refine ⟨_, _, .top hplain hinside hchain, hentry, htop ▸ .top ?_ hplain hinside ?_ ?_⟩
  · simp [missing_cons (q := .cls flat) hnew]
  · exact (package?_withEntry_cls ..).trans howner
  · exact (lookup?_withEntry _ _ (.cls flat) _).trans (if_pos rfl)

/-- A nested class is added below its outer class. If the class at the top level was listed
before, it may as well be listed afterwards. -/
theorem Allocates.nested {flat outer inner : Name} {owner : SymbolId}
    (h : s.Allocates (.cls outer) s') (hreg : s.Registered) (hnew : s.class? flat = none)
    (hcut : flat.Cut '$' outer inner) (howner : s'.class? outer = some owner) :
    s.Allocates (.cls flat) (s'.withClass (flat.lastPart '$') flat owner) := by
  obtain ⟨chain, s₀, hchain, henrols, hlists⟩ := h
  have hinside : (flat.enclosing '$').head? = some outer := by rw [hcut.enclosing, List.head?_cons]
  have hfresh : Request.cls flat ∉ chain := fun hm =>
    absurd (hchain.enclosedBy hm).name_le (Nat.not_le.2 hcut.shorter)
  have hadd : ∀ s₁ : Store, s₁.withClass (flat.lastPart '$') flat owner =
      s₁.withEntry (.cls flat) owner := by
    intro s₁
    rw [withEntry, Request.simpleName_nested hinside]
  have howner₀ : s₀.class? outer = some owner := by cases hlists <;> exact howner
  have hentry := henrols.next (q := .cls flat) hnew hfresh
    (by rw [Request.parent?_nested hinside, Option.bind_some]; exact howner₀)
  refine ⟨_, _, .nested hcut hchain, hentry, hadd s' ▸ ?_⟩
  rw [missing_cons (q := .cls flat) hnew]
  cases hlists with
  | nothing nested =>
    refine .nothing fun n hn => ?_
    rcases List.mem_append.1 hn with hn | hn
    · exact nested n hn
    · obtain rfl := Request.cls.inj (List.mem_singleton.1 hn)
      exact Name.mem_of_head?_enclosing hinside
  | @top n full simple package id mem plain inside hpackage hcls =>
    rw [withEntry_update (henrols.hasSymbol hreg (q := .package full) hpackage)]
    have hne : Request.cls n ≠ .cls flat := fun he => hfresh (he ▸ mem_of_mem_missing mem)
    refine .top (List.mem_append_left _ mem) plain inside ?_ ?_
    · exact (package?_withEntry_cls ..).trans hpackage
    · exact (lookup?_withEntry _ _ (.cls n) _).trans ((if_neg hne).trans hcls)

end Store

/-! ## Resolution -/

namespace World

open Store

variable {predef : SymbolId}

theorem enterPackageIn_of_found {w : World} {full : Name} {id : SymbolId}
    (h : w.store.package? full = some id) (outer : List Name) :
    w.enterPackageIn full outer = (id, w) := by
  cases outer <;> simp [enterPackageIn, h]

theorem enterClassIn_of_found {w : World} {flat : Name} {id : SymbolId}
    (h : w.store.class? flat = some id) (outer : List Name) :
    w.enterClassIn flat outer = (id, w) := by
  cases outer <;> simp [enterClassIn, h]

theorem enterPackageIn_enrols (w : World) {full : Name} {outer : List Name}
    (hl : full.outerPackages = outer) (hf : w.store.Filed predef) : ∃ chain,
    (Request.package full).Chain chain ∧
      w.store.Enrols (w.store.missing chain) (w.enterPackageIn full outer).2.store := by
  have hfound : ∀ (w : World) (full : Name) (outer : List Name), w.store.Filed predef →
      (w.store.package? full).isSome → ∃ chain, (Request.package full).Chain chain ∧
        w.store.Enrols (w.store.missing chain) (w.enterPackageIn full outer).2.store := by
    intro w full outer hf hsome
    obtain ⟨chain, hchain⟩ := Request.exists_chain_package full
    obtain ⟨id, hid⟩ := Option.isSome_iff_exists.1 hsome
    refine ⟨chain, hchain, ?_⟩
    rw [hf.missing_eq_nil (r := .package full) hsome hchain, enterPackageIn_of_found hid]
    exact .nil _
  -- the induction is on the packages around the one asked for, as the recursion is
  induction outer generalizing w full with
  | nil =>
    have hfull : full = "" := Decidable.byContradiction fun hne => by
      simp [Name.outerPackages_of_ne hne] at hl
    subst hfull
    exact hfound w "" [] hf hf.registered.root
  | cons parent outer ih =>
    have hne : full ≠ "" := by
      rintro rfl
      simp [Name.outerPackages_empty] at hl
    cases hp : w.store.package? full with
    | some id => exact hfound w full _ hf (by rw [hp]; rfl)
    | none =>
      rw [Name.outerPackages_of_ne hne, List.cons.injEq] at hl
      obtain ⟨rfl, hl⟩ := hl
      obtain ⟨chain, hchain, henrols⟩ := ih (w.see full.packagePart) hl hf
      have howner := (enterPackageIn_entered (w.see full.packagePart) hl hf.registered.root).found
      have hnew : Request.package full ∉ chain := fun hm =>
        absurd (hchain.enclosedBy hm).name_le (Nat.not_le.2 (Name.packagePart_lt hne))
      refine ⟨_, .package hne (Name.inPackage_iff.2 ⟨rfl, rfl⟩) hchain, ?_⟩
      simp only [enterPackageIn, hp, (addPackage_some _ full _).2]
      exact henrols.next (q := .package full) hp hnew
        (by rw [Request.parent?_package hne, Option.bind_some]; exact howner)

theorem enterPackage_enrols (w : World) (full : Name) (hf : w.store.Filed predef) : ∃ chain,
    (Request.package full).Chain chain ∧
      w.store.Enrols (w.store.missing chain) (w.enterPackage full).2.store :=
  w.enterPackageIn_enrols rfl hf

theorem addTopClass_allocates (w : World) {flat : Name} (hf : w.store.Filed predef)
    (hnew : w.store.class? flat = none) (hplain : '$' ∉ flat.toList) :
    w.store.Allocates (.cls flat) (w.addTopClass flat).2.store := by
  have hf₀ : ((w.see flat.dotted).see flat.packagePart).store.Filed predef := hf
  obtain ⟨chain, hchain, henrols⟩ := enterPackage_enrols _ flat.packagePart hf₀
  have howner := (enterPackage_entered _ flat.packagePart hf₀.registered.root).found
  cases hr : ((w.see flat.dotted).see flat.packagePart).enterPackage flat.packagePart with
  | mk owner w₁ =>
    rw [hr] at henrols howner
    rw [(w.addTopClass_store hr).2]
    exact henrols.top hchain hnew hplain howner

theorem enterClassIn_allocates (w : World) {flat : Name} {outer : List Name}
    (hl : flat.enclosing '$' = outer) (hf : w.store.Filed predef) :
    w.store.Allocates (.cls flat) (w.enterClassIn flat outer).2.store := by
  -- the induction is on the classes around the one asked for
  induction outer generalizing w flat with
  | nil =>
    cases hc : w.store.class? flat with
    | some id =>
      rw [enterClassIn_of_found hc]
      exact hf.allocates (r := .cls flat) (by simp [Store.lookup?, hc])
    | none =>
      simp only [enterClassIn, hc]
      exact w.addTopClass_allocates hf hc (Name.notMem_of_enclosing hl)
  | cons parent outer ih =>
    have hhead : (flat.enclosing '$').head? = some parent := by rw [hl, List.head?_cons]
    obtain ⟨p, inner, hcut⟩ := Name.exists_cut (Name.mem_of_head?_enclosing hhead)
    obtain ⟨rfl, hrest⟩ := List.cons.inj (hcut.enclosing.symm.trans hl)
    cases hc : w.store.class? flat with
    | some id =>
      rw [enterClassIn_of_found hc]
      exact hf.allocates (r := .cls flat) (by simp [Store.lookup?, hc])
    | none =>
      let w₀ := (w.see flat.dotted).see p
      have hin : w.store.Allocates (.cls p) (w₀.enterClassIn p outer).2.store := ih w₀ hrest hf
      have howner := (w₀.enterClassIn_entered hrest hf.registered.root).found
      simp only [enterClassIn, hc, (addClass_store _ _ flat _).2]
      exact hin.nested hf.registered hc hcut howner

/-! ## Requests -/

theorem requests_enterPackageIn (w : World) (full : Name) (outer : List Name) :
    (w.enterPackageIn full outer).2.requests = w.requests := by
  induction outer generalizing w full with
  | nil =>
    simp only [enterPackageIn]
    split <;> rfl
  | cons parent outer ih =>
    simp only [enterPackageIn]
    split
    · rfl
    · exact ih (w.see parent) parent

theorem requests_enterPackage (w : World) (full : Name) :
    (w.enterPackage full).2.requests = w.requests := w.requests_enterPackageIn full _

theorem requests_addTopClass (w : World) (flat : Name) :
    (w.addTopClass flat).2.requests = w.requests := by
  have hp := requests_enterPackage ((w.see flat.dotted).see flat.packagePart) flat.packagePart
  cases hr : ((w.see flat.dotted).see flat.packagePart).enterPackage flat.packagePart with
  | mk owner w₁ =>
    rw [hr] at hp
    simp only [addTopClass, hr]
    exact hp

theorem requests_enterClassIn (w : World) (flat : Name) (outer : List Name) :
    (w.enterClassIn flat outer).2.requests = w.requests := by
  induction outer generalizing w flat with
  | nil =>
    simp only [enterClassIn]
    split
    · rfl
    · exact w.requests_addTopClass flat
  | cons parent outer ih =>
    simp only [enterClassIn]
    split
    · rfl
    · exact ih ((w.see flat.dotted).see parent) parent

/-- What became of a world in which `r` was resolved, with `id` for an answer. -/
structure Resolves (w : World) (r : Request) (id : SymbolId) (w' : World) : Prop where
  /-- A name that is registered is only looked up. -/
  known : ∀ x, w.store.lookup? r = some x → id = x ∧ w' = w
  found : w'.store.lookup? r = some id
  allocates : w.store.Allocates r w'.store
  /-- A new class is pending, has no modifiers, and only its names are known. -/
  pending : ∀ flat x, w.store.class? flat = none → w'.store.class? flat = some x →
    ∃ simple ty owner, w'.store.symbol? x = some (.entered simple flat ty owner)
  /-- No completer runs: what is known of a class stays as it is. -/
  classes : ∀ x info, w.store.classInfo? x = some info → w'.store.classInfo? x = some info
  /-- Resolving a package changes no scope, nor anything else that was there. -/
  scopes : ∀ full, r = .package full → ∀ x, w.store.HasSymbol x →
    w'.store.symbol? x = w.store.symbol? x
  path : w'.path = w.path
  requests : w'.requests = w.requests

theorem enterClass_resolves (w : World) (flat : Name) (hf : w.store.Filed predef) :
    w.Resolves (.cls flat) (w.enterClass flat).1 (w.enterClass flat).2 := by
  have hentered := w.enterClass_entered flat hf.registered.root
  constructor
  · intro x hx
    simp [enterClass, enterClassIn_of_found hx]
  · exact hentered.found
  · exact w.enterClassIn_allocates rfl hf
  · intro n x hnew hx
    exact (hentered.entering.entered hf.registered hx).resolve_left (by simp [hnew])
  · exact fun x info hx => hentered.entering.classInfo? hf.registered hx
  · intro full hr
    cases hr
  · exact (enterClassIn_oblivious flat _).path w
  · exact w.requests_enterClassIn flat _

theorem enterPackage_resolves (w : World) (full : Name) (hf : w.store.Filed predef) :
    w.Resolves (.package full) (w.enterPackage full).1 (w.enterPackage full).2 := by
  have hentered := w.enterPackage_entered full hf.registered.root
  obtain ⟨chain, hchain, henrols⟩ := w.enterPackage_enrols full hf
  constructor
  · intro x hx
    simp [enterPackage, enterPackageIn_of_found hx]
  · exact hentered.found
  · exact ⟨chain, _, hchain, henrols, .nothing fun flat hm =>
      absurd (mem_of_mem_missing hm) hchain.cls_notMem⟩
  · intro n x hnew hx
    exact (hentered.entering.entered hf.registered hx).resolve_left (by simp [hnew])
  · exact fun x info hx => hentered.entering.classInfo? hf.registered hx
  · exact fun _ _ x hx => henrols.symbol? x hx
  · exact (enterPackageIn_oblivious full _).path w
  · exact w.requests_enterPackage full

end World

namespace Session

/-- Whatever the text, resolving it as a class or as a package enters what is missing of its chain
and touches nothing else. -/
theorem Reachable.resolution_allocates {st : Session} (h : st.Reachable) (n : Name) :
    (let w := st.world.see n
     w.Resolves (.cls n) (ClassPath.resolver.resolveClass n w).1
       (ClassPath.resolver.resolveClass n w).2) ∧
    (let w := st.world.see n
     w.Resolves (.package n) (ClassPath.resolver.resolvePackage n w).1
       (ClassPath.resolver.resolvePackage n w).2) := by
  have hf : (st.world.see n).store.Filed st.table.predefClass := h.filed
  exact ⟨World.enterClass_resolves _ n hf, World.enterPackage_resolves _ n hf⟩

/-- A text with empty parts, of which a package and an outer class are there already. -/
theorem resolution_allocates_degenerate : ∃ (t : Table) (w : World),
    Table.build .default Messages.english ClassPath.resolver .empty = (.ok t, w) ∧
      let st := (Session.mk t w).run [.resolvePackage "a.", .resolveClass "a..b$c.d"]
      let w := st.world.see "a..b$c.d$$e"
      st.Reachable ∧
        w.Resolves (.cls "a..b$c.d$$e") (ClassPath.resolver.resolveClass "a..b$c.d$$e" w).1
          (ClassPath.resolver.resolveClass "a..b$c.d$$e" w).2 ∧
        w.Resolves (.package "a..b$c.d$$e") (ClassPath.resolver.resolvePackage "a..b$c.d$$e" w).1
          (ClassPath.resolver.resolvePackage "a..b$c.d$$e" w).2 := by
  obtain ⟨t, w, hbuild, -⟩ := Table.building_ensures .default Messages.english .empty
  have hreach := (Reachable.built hbuild).run [.resolvePackage "a.", .resolveClass "a..b$c.d"]
  exact ⟨t, w, hbuild, hreach, hreach.resolution_allocates "a..b$c.d$$e"⟩

end Session

end SymbolTable
