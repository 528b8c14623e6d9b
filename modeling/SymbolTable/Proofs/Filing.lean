/-
Where registered names are filed.

A name says what is registered under it: its last part is the simple name,
and its parent is the owner, which is registered too. A package lists the
top-level classes that its name is the parent of, each once, and nothing
else. `Filed` says this of a store. It holds on the ground and growth keeps
it, so the names that are registered after growth are those there were, and
whatever encloses a name that was asked for.
-/
import SymbolTable.Proofs.Growth

namespace SymbolTable

open Store

/-! ## Registered names -/

/-- The symbol has the names and the owner of what is registered under `r`. -/
structure Symbol.FiledUnder (s : Store) (r : Request) (sym : Symbol) : Prop where
  kind : sym.kind = r.kind
  name : sym.name = r.simpleName
  qualified : sym.qualifiedName = r.sourceName
  owner : sym.owner = r.parent?.bind s.lookup?
  parent : ∀ p, r.parent? = some p → (s.lookup? p).isSome

theorem Symbol.FiledUnder.mono {s s' : Store} {r : Request} {sym sym' : Symbol}
    (h : sym.FiledUnder s r) (hk : s.Keeps s') (ho : sym'.outline = sym.outline) :
    sym'.FiledUnder s' r where
  kind := (kind_of_outline ho).trans h.kind
  name := (name_of_outline ho).trans h.name
  qualified := (qualifiedName_of_outline ho).trans h.qualified
  owner := by
    rw [owner_of_outline ho, h.owner]
    cases hp : r.parent? with
    | none => rfl
    | some p =>
      obtain ⟨owner, howner⟩ := Option.isSome_iff_exists.1 (h.parent p hp)
      simp [howner, hk.lookup? howner]
  parent p hp := hk.isSome_lookup? (h.parent p hp)

/-- What a symbol is called, and what its owner is called. -/
structure Card where
  kind : SymbolKind
  name : Name
  full : Name
  key : Name
  owner : Option Name
  deriving DecidableEq, Repr

def Request.card (r : Request) : Card :=
  ⟨r.kind, r.simpleName, r.sourceName, r.name, r.parent?.map Request.name⟩

namespace Store

variable {s s' : Store} {predef id x : SymbolId} {full n : Name} {l : List Change}

/-- `x` is a class at the top level of the package `full`, and its simple name is `n`. The
predefined class is not counted among those of the root package. -/
def TopClass (s : Store) (predef : SymbolId) (full n : Name) (x : SymbolId) : Prop :=
  x ≠ predef ∧ ∃ flat, s.class? flat = some x ∧
    (Request.cls flat).parent? = some (.package full) ∧ (Request.cls flat).simpleName = n

/-- The package `id` has an ordinary scope, which lists its top-level classes once each. -/
structure ListsClasses (s : Store) (predef : SymbolId) (full : Name) (id : SymbolId) : Prop where
  scope : ∃ sc, s.members? id = some sc ∧ sc.isError = false
  nodup : ∀ n, (s.lookupMember id n).Nodup
  members : ∀ n x, x ∈ s.lookupMember id n ↔ s.TopClass predef full n x

/-- What is registered has the names and the owner that its key says, and packages list their
classes. -/
structure Filed (s : Store) (predef : SymbolId) : Prop where
  registered : s.Registered
  predefined : s.class? "" = some predef
  entry : ∀ {r id}, s.lookup? r = some id → ∃ sym, s.symbol? id = some sym ∧ sym.FiledUnder s r
  lists : ∀ {full id}, s.package? full = some id → s.ListsClasses predef full id

theorem Filed.parent (h : s.Filed predef) {q r : Request} (hq : (s.lookup? q).isSome)
    (hr : q.parent? = some r) : (s.lookup? r).isSome := by
  obtain ⟨id, hid⟩ := Option.isSome_iff_exists.1 hq
  obtain ⟨sym, -, hsym⟩ := h.entry hid
  exact hsym.parent r hr

/-- Whatever encloses a registered name is registered. -/
theorem Filed.enclosing (h : s.Filed predef) {q r : Request} (hq : (s.lookup? q).isSome)
    (hr : q.EnclosedBy r) : (s.lookup? r).isSome := by
  induction hr with
  | refl => exact hq
  | tail _ hstep ih => exact h.parent ih hstep

theorem Registered.full_eq (h : s.Registered) {full full' : Name} (hp : s.package? full = some id)
    (hp' : s.package? full' = some id) : full = full' := by
  obtain ⟨sym, info, hs, hb, hfull⟩ := h.package hp
  obtain ⟨sym', info', hs', hb', hfull'⟩ := h.package hp'
  obtain rfl := Option.some.inj (hs.symm.trans hs')
  obtain rfl := SymbolBody.package.inj (hb.symm.trans hb')
  exact hfull.symm.trans hfull'

/-! ## Cards -/

def keyOf? (s : Store) (id : SymbolId) : Option Name := (s.symbol? id).map Symbol.key

def card? (s : Store) (id : SymbolId) : Option Card :=
  (s.symbol? id).map fun sym =>
    ⟨sym.kind, sym.name, sym.qualifiedName, sym.key, sym.owner.bind s.keyOf?⟩

theorem Keeps.keyOf? (hk : s.Keeps s') (hid : s.HasSymbol id) : s'.keyOf? id = s.keyOf? id := by
  obtain ⟨sym, hs⟩ := hid.symbol?
  obtain ⟨sym', hs', ho⟩ := hk.symbol? hs
  simp [Store.keyOf?, hs, hs', Symbol.key_of_outline ho]

theorem Keeps.card? (hk : s.Keeps s') {root mc : SymbolId} (hl : s.Linked root mc)
    (hid : s.HasSymbol id) : s'.card? id = s.card? id := by
  obtain ⟨sym, hs⟩ := hid.symbol?
  obtain ⟨sym', hs', ho⟩ := hk.symbol? hs
  have howner : sym.owner.bind s'.keyOf? = sym.owner.bind s.keyOf? := by
    cases hsym : sym.owner with
    | none => rfl
    | some owner =>
      have hlt := (hl.symbols id sym hs).owner owner hsym
      exact hk.keyOf? (Nat.lt_trans hlt hid)
  simp only [Store.card?, hs, hs', Option.map_some, Symbol.kind_of_outline ho,
    Symbol.name_of_outline ho, Symbol.qualifiedName_of_outline ho, Symbol.key_of_outline ho,
    Symbol.owner_of_outline ho, howner]

/-- `id` is what `body` says, with a name and an owner. -/
def Declares (s : Store) (id : SymbolId) (body : SymbolBody) (name : Name) (owner : SymbolId) : Prop :=
  ∃ ty, s.outline? id = some
    { modifiers := .empty, name, owner := some owner, ty, sentinel := none, body }

theorem Keeps.declares (hk : s.Keeps s') {body : SymbolBody} {owner : SymbolId}
    (h : s.Declares id body n owner) : s'.Declares id body n owner := by
  obtain ⟨ty, hid⟩ := h
  exact ⟨ty, hk.outline hid⟩

theorem Declares.hasSymbol {body : SymbolBody} {owner : SymbolId} (h : s.Declares id body n owner) :
    s.HasSymbol id := by
  obtain ⟨ty, hid⟩ := h
  obtain ⟨sym, hs, -⟩ := Option.map_eq_some_iff.1 hid
  exact hasSymbol_of_symbol? hs

/-- A method, an operator or a field goes by its simple name. -/
theorem Declares.card? {body : SymbolBody} {owner : SymbolId} (h : s.Declares id body n owner)
    (hcls : ∀ info, body ≠ .cls info) (hpackage : ∀ info, body ≠ .package info) :
    s.card? id = some ⟨body.kind, n, n, n, s.keyOf? owner⟩ := by
  obtain ⟨ty, hid⟩ := h
  obtain ⟨sym, hs, ho⟩ := Option.map_eq_some_iff.1 hid
  obtain ⟨m, name, o, ty', sentinel, body'⟩ := sym
  simp only [Symbol.outline, Symbol.mk.injEq, true_and] at ho
  obtain ⟨rfl, rfl, rfl, rfl, hbody⟩ := ho
  obtain rfl : body' = body := by
    cases body' with
    | cls info => exact absurd hbody.symm (hcls _)
    | package info => exact absurd hbody.symm (hpackage _)
    | _ => exact hbody
  have hname : (Symbol.mk m name (some owner) ty' none body').qualifiedName = name := by
    unfold Symbol.qualifiedName
    split
    · exact absurd ‹_› (hcls _)
    · exact absurd ‹_› (hpackage _)
    · rfl
  have hkey : (Symbol.mk m name (some owner) ty' none body').key = name := by
    unfold Symbol.key
    split
    · exact absurd ‹_› (hcls _)
    · exact hname
  simp only [Store.card?, hs, Option.map_some, Symbol.kind, hname, hkey, Option.bind_some]

theorem Registered.keyOf? (h : s.Registered) {r : Request} (hr : s.lookup? r = some id) :
    s.keyOf? id = some r.name := by
  cases r with
  | cls flat =>
    obtain ⟨sym, info, hs, hb, hflat, -⟩ := h.cls hr
    simp [Store.keyOf?, hs, Symbol.key, hb, hflat, Request.name]
  | package full =>
    obtain ⟨sym, info, hs, hb, hfull⟩ := h.package hr
    simp [Store.keyOf?, hs, Symbol.key, hb, Symbol.qualifiedName, hfull, Request.name]

theorem Filed.card? (h : s.Filed predef) {r : Request} (hr : s.lookup? r = some id) :
    s.card? id = some r.card := by
  obtain ⟨sym, hs, hfiled⟩ := h.entry hr
  have hkey : sym.key = r.name := by simpa [Store.keyOf?, hs] using h.registered.keyOf? hr
  have howner : sym.owner.bind s.keyOf? = r.parent?.map Request.name := by
    rw [hfiled.owner]
    cases hp : r.parent? with
    | none => rfl
    | some p =>
      obtain ⟨owner, ho⟩ := Option.isSome_iff_exists.1 (hfiled.parent p hp)
      simp [ho, h.registered.keyOf? ho]
  simp only [Store.card?, hs, Option.map_some, hfiled.kind, hfiled.name, hfiled.qualified, hkey,
    howner, Request.card]

/-! ## One entry -/

/-- An entry registers one name that was missing, for a symbol filed under it. -/
theorem Enters.entry (h : s.Registered) (he : Enters s s') : ∃ r sym, s.lookup? r = none ∧
    (∀ q, s'.lookup? q = if q = r then some s.nextSymbol else s.lookup? q) ∧
    s'.symbol? s.nextSymbol = some sym ∧ sym.FiledUnder s r := by
  cases he with
  | @package full owner fresh named parent =>
    have hp := Request.parent?_package named
    refine ⟨.package full, _, fresh, lookup?_withPackage _ _ _,
      by rw [symbol?_withPackage, if_pos rfl], rfl, rfl, rfl, ?_, fun p hp' => ?_⟩
    · simp [hp, Store.lookup?, parent]
    · obtain rfl := Option.some.inj (hp.symm.trans hp')
      simp [Store.lookup?, parent]
  | @top flat owner fresh plain parent =>
    have hp := Request.parent?_top plain
    have howner := (h.hasSymbol_package parent).ne_next.symm
    refine ⟨.cls flat, .entered (flat.lastPart '.') flat s.nextType owner, fresh,
      lookup?_withTopClass _ _ _, ?_, rfl, (Request.simpleName_top plain).symm, rfl, ?_,
      fun p hp' => ?_⟩
    · rw [symbol?_withTopClass, if_neg howner, symbol?_withClass, if_pos rfl]
    · simp [hp, Store.lookup?, parent, Symbol.entered]
    · obtain rfl := Option.some.inj (hp.symm.trans hp')
      simp [Store.lookup?, parent]
  | @nested flat outer owner fresh inside parent =>
    have hp := Request.parent?_nested inside
    refine ⟨.cls flat, .entered (flat.lastPart '$') flat s.nextType owner, fresh,
      lookup?_withClass _ _ _ _, by rw [symbol?_withClass, if_pos rfl], rfl,
      (Request.simpleName_nested inside).symm, rfl, ?_, fun p hp' => ?_⟩
    · simp [hp, Store.lookup?, parent, Symbol.entered]
    · obtain rfl := Option.some.inj (hp.symm.trans hp')
      simp [Store.lookup?, parent]

theorem topClass_of_class? (h : ∀ flat, s'.class? flat = s.class? flat) :
    s'.TopClass predef full n x ↔ s.TopClass predef full n x := by
  simp only [TopClass, h]

theorem topClass_insert {flat : Name} {y : SymbolId} (hnew : s.class? flat = none)
    (hclass : ∀ m, s'.class? m = if m = flat then some y else s.class? m) (hy : y ≠ predef) :
    s'.TopClass predef full n x ↔ s.TopClass predef full n x ∨
      x = y ∧ (Request.cls flat).parent? = some (.package full) ∧
        (Request.cls flat).simpleName = n := by
  simp only [TopClass, hclass]
  constructor
  · intro h
    obtain ⟨hx, m, hm, hp, hn⟩ := h
    split at hm
    · next he => exact .inr ⟨(Option.some.inj hm).symm, he ▸ hp, he ▸ hn⟩
    · exact .inl ⟨hx, m, hm, hp, hn⟩
  · intro h
    rcases h with ⟨hx, m, hm, hp, hn⟩ | ⟨rfl, hp, hn⟩
    · have hne : m ≠ flat := by
        rintro rfl
        simp [hnew] at hm
      exact ⟨hx, m, by rw [if_neg hne, hm], hp, hn⟩
    · exact ⟨hy, flat, by rw [if_pos rfl], hp, hn⟩

/-- A package whose symbol and whose classes are what they were. -/
theorem ListsClasses.of_same (h : s.ListsClasses predef full id)
    (hs : s'.symbol? id = s.symbol? id)
    (hc : ∀ n x, s'.TopClass predef full n x ↔ s.TopClass predef full n x) :
    s'.ListsClasses predef full id where
  scope := by
    unfold members?
    rw [hs]
    exact h.scope
  nodup n := lookupMember_of_symbol? hs n ▸ h.nodup n
  members n x := by rw [lookupMember_of_symbol? hs, h.members, hc]

theorem ListsClasses.package (h : s.Filed predef) {owner : SymbolId} {full' : Name}
    (fresh : s.package? full' = none) (hp : (s.withPackage full' owner).package? full = some id) :
    (s.withPackage full' owner).ListsClasses predef full id := by
  rw [package?_withPackage] at hp
  split at hp
  · next hfull =>
    -- no class is in a package that is not there
    obtain rfl := Option.some.inj hp
    have hmembers : (s.withPackage full' owner).members? s.nextSymbol = some (.members s.nextSymbol) := by
      simp [members?, symbol?_withPackage, Symbol.members?]
    have hnone : ∀ n, (s.withPackage full' owner).lookupMember s.nextSymbol n = [] := by
      intro n
      rw [lookupMember, hmembers]
      rfl
    refine ⟨⟨_, hmembers, rfl⟩, fun n => by rw [hnone]; exact .nil, fun n x => ?_⟩
    rw [hnone]
    refine iff_of_false List.not_mem_nil ?_
    rintro ⟨-, flat, hc, hparent, -⟩
    have hreg := h.parent (q := .cls flat) (by rw [Store.lookup?]; exact hc ▸ rfl) hparent
    rw [Store.lookup?, hfull, fresh] at hreg
    cases hreg
  · refine (h.lists hp).of_same ?_ fun n x => topClass_of_class? fun _ => rfl
    rw [symbol?_withPackage, if_neg (h.registered.hasSymbol_package hp).ne_next]

theorem ListsClasses.top (h : s.Filed predef) {flat : Name} {owner : SymbolId}
    (fresh : s.class? flat = none) (plain : flat.enclosing '$' = [])
    (parent : s.package? flat.packagePart = some owner) (hp : s.package? full = some id) :
    (s.withTopClass flat owner).ListsClasses predef full id := by
  have hid := h.registered.hasSymbol_package hp
  have hy : s.nextSymbol ≠ predef := (h.registered.hasSymbol h.predefined).ne_next.symm
  have htop : ∀ {n x}, (s.withTopClass flat owner).TopClass predef full n x ↔ _ :=
    topClass_insert fresh (class?_withTopClass s flat · owner) hy
  have hold := h.lists hp
  by_cases ho : id = owner
  · subst ho
    obtain rfl := h.registered.full_eq hp parent
    have hsame : (s.withClass (flat.lastPart '.') flat id).symbol? id = s.symbol? id := by
      rw [symbol?_withClass, if_neg hid.ne_next]
    obtain ⟨sc, hsc, herr⟩ := hold.scope
    have hsc' : (s.withClass (flat.lastPart '.') flat id).members? id = some sc := by
      unfold members?
      rw [hsame]
      exact hsc
    have hlookup : ∀ n, (s.withTopClass flat id).lookupMember id n =
        s.lookupMember id n ++ if n = flat.lastPart '.' then [s.nextSymbol] else [] := by
      intro n
      rw [withTopClass, lookupMember_enter hsc' herr, lookupMember_of_symbol? hsame]
    refine ⟨⟨_, members?_enter hsc' _ _, herr⟩, fun n => ?_, fun n x => ?_⟩
    · rw [hlookup, List.nodup_append]
      refine ⟨hold.nodup n, by split <;> simp, fun a ha b hb hab => ?_⟩
      obtain ⟨-, m, hm, -⟩ := (hold.members n a).1 ha
      have hb' : b = s.nextSymbol := by
        split at hb
        · exact List.mem_singleton.1 hb
        · cases hb
      exact (h.registered.hasSymbol hm).ne_next (hab.trans hb')
    · rw [hlookup, List.mem_append, hold.members, htop, Request.simpleName_top plain]
      refine or_congr Iff.rfl ?_
      by_cases hn : n = flat.lastPart '.'
      · simp [hn, Request.parent?_top plain]
      · simp [hn, Ne.symm hn]
  · refine hold.of_same ?_ fun n x => htop.trans (or_iff_left ?_)
    · rw [symbol?_withTopClass, if_neg ho, symbol?_withClass, if_neg hid.ne_next]
    · rintro ⟨-, hparent, -⟩
      rw [Request.parent?_top plain, Option.some.injEq, Request.package.injEq] at hparent
      rw [hparent, hp, Option.some.injEq] at parent
      exact ho parent

theorem ListsClasses.nested (h : s.Filed predef) {flat outer simple : Name} {owner : SymbolId}
    (fresh : s.class? flat = none) (inside : (flat.enclosing '$').head? = some outer)
    (hp : s.package? full = some id) : (s.withClass simple flat owner).ListsClasses predef full id := by
  have hy : s.nextSymbol ≠ predef := (h.registered.hasSymbol h.predefined).ne_next.symm
  refine (h.lists hp).of_same ?_ fun n x =>
    (topClass_insert fresh (class?_withClass s simple flat · owner) hy).trans (or_iff_left ?_)
  · rw [symbol?_withClass, if_neg (h.registered.hasSymbol_package hp).ne_next]
  · rintro ⟨-, hparent, -⟩
    rw [Request.parent?_nested inside] at hparent
    cases hparent

theorem Filed.enters (h : s.Filed predef) (he : Enters s s') : s'.Filed predef where
  registered := h.registered.enters he
  predefined := he.keeps.cls h.predefined
  entry {q id} hq := by
    obtain ⟨r, sym, -, hlookup, hs, hfiled⟩ := he.entry h.registered
    rw [hlookup] at hq
    split at hq
    · next hqr =>
      obtain rfl := Option.some.inj hq
      exact ⟨sym, hs, hqr ▸ hfiled.mono he.keeps rfl⟩
    · obtain ⟨sym₀, hs₀, hfiled₀⟩ := h.entry hq
      obtain ⟨sym', hs', ho⟩ := he.keeps.symbol? hs₀
      exact ⟨sym', hs', hfiled₀.mono he.keeps ho⟩
  lists {full id} hp := by
    cases he with
    | package fresh _ _ => exact .package h fresh hp
    | top fresh plain parent => exact .top h fresh plain parent hp
    | nested fresh inside _ => exact .nested h fresh inside hp

theorem Filed.entering (h : s.Filed predef) (he : Entering s s') : s'.Filed predef := by
  induction he with
  | refl => exact h
  | tail _ hstep ih => exact ih.enters hstep

/-! ## Growth -/

theorem Filed.of_maps (h : s.Filed predef) (hk : s.Keeps s') (hc : s'.classes = s.classes)
    (hp : s'.packages = s.packages) (hsame : ∀ id sym info, s.symbol? id = some sym →
      sym.body = .package info → s'.symbol? id = some sym) : s'.Filed predef where
  registered := h.registered.of_maps hk hc hp
  predefined := hk.cls h.predefined
  entry {r id} hr := by
    rw [lookup?_of_maps hc hp] at hr
    obtain ⟨sym, hs, hfiled⟩ := h.entry hr
    obtain ⟨sym', hs', ho⟩ := hk.symbol? hs
    exact ⟨sym', hs', hfiled.mono hk ho⟩
  lists {full id} hpackage := by
    have hpackage' : s.package? full = some id := by simpa only [package?, hp] using hpackage
    obtain ⟨sym, info, hs, hb, -⟩ := h.registered.package hpackage'
    refine (h.lists hpackage').of_same ?_ fun n x => topClass_of_class? fun _ => ?_
    · rw [hsame id sym info hs hb, hs]
    · simp only [class?, hc]

theorem Grows.filed (h : s.Grows l s') (hf : s.Filed predef) : s'.Filed predef := by
  induction h with
  | refl => exact hf
  | ask _ asked ih => exact ih.entering asked.entering
  | @rework l s₁ id f _ kept ih =>
    refine ih.of_maps (keeps_update _ _ fun sym hs => (kept sym hs).2) rfl rfl fun x sym info hs hb => ?_
    have hne : x ≠ id := by
      rintro rfl
      obtain ⟨info', hb'⟩ := (kept sym hs).1
      rw [hb] at hb'
      cases hb'
    rw [symbol?_update_other _ _ hne, hs]
  | method _ _ _ ih =>
    refine ih.of_maps (keeps_extend ..) rfl rfl fun x sym info hs _ => ?_
    rw [symbol?_extend_old (hasSymbol_of_symbol? hs), hs]
  | field _ _ ih =>
    refine ih.of_maps (keeps_addSymbol ..) rfl rfl fun x sym info hs _ => ?_
    rw [symbol?_addSymbol, if_neg (hasSymbol_of_symbol? hs).ne_next, hs]

/-- The names that are registered after growth. -/
theorem Grows.isSome_lookup?_iff (h : s.Grows l s') (hf : s.Filed predef) {r : Request} :
    (s'.lookup? r).isSome ↔
      (s.lookup? r).isSome ∨ ∃ q, Change.request q ∈ l ∧ q.EnclosedBy r := by
  have hmaps : ∀ {a b : Store} {r}, b.classes = a.classes → b.packages = a.packages →
      ((b.lookup? r).isSome ↔ (a.lookup? r).isSome) := fun hc hp => by rw [lookup?_of_maps hc hp]
  induction h generalizing r with
  | refl => simp
  | @ask l rs s₁ s₂ hgrows asked ih =>
    have hfiled := (hgrows.filed hf).entering asked.entering
    simp only [List.mem_append, or_and_right, exists_or, ← or_assoc, ← ih]
    constructor
    · intro hr
      rcases asked.only r hr with hr | ⟨q, hq, hqr⟩
      · exact .inl hr
      · exact .inr ⟨q, List.mem_map_of_mem hq, hqr⟩
    · intro hr
      rcases hr with hr | ⟨q, hq, hqr⟩
      · exact asked.entering.keeps.isSome_lookup? hr
      · obtain ⟨q', hq', he⟩ := List.mem_map.1 hq
        obtain rfl := Change.request.inj he
        exact hfiled.enclosing (asked.found q' hq') hqr
  | rework _ _ ih => exact (hmaps rfl rfl).trans ih
  | method _ _ _ ih =>
    simp only [List.mem_append, List.mem_singleton, reduceCtorEq, or_false]
    exact (hmaps rfl rfl).trans ih
  | field _ _ ih =>
    simp only [List.mem_append, List.mem_singleton, reduceCtorEq, or_false]
    exact (hmaps rfl rfl).trans ih

/-- The order in which a store grows does not matter to the names that are registered. -/
theorem Grows.isSome_lookup?_congr {s₁ s₂ : Store} {l₁ l₂ : List Change} (h₁ : s.Grows l₁ s₁)
    (h₂ : s.Grows l₂ s₂) (hf : s.Filed predef) (hl : l₁.Perm l₂) (r : Request) :
    (s₁.lookup? r).isSome ↔ (s₂.lookup? r).isSome := by
  rw [h₁.isSome_lookup?_iff hf, h₂.isSome_lookup?_iff hf]
  simp only [hl.mem_iff]

/-- The same names are registered, and there are as many symbols and types. -/
structure SameExtent (s s' : Store) : Prop where
  classes : s.classes.keys.Perm s'.classes.keys
  packages : s.packages.keys.Perm s'.packages.keys
  symbols : s.symbols.size = s'.symbols.size
  types : s.types.size = s'.types.size

/-- Nor does it matter to the extent of the store. -/
theorem Grows.sameExtent {s₁ s₂ : Store} {l₁ l₂ : List Change} (h₁ : s.Grows l₁ s₁)
    (h₂ : s.Grows l₂ s₂) (hf : s.Filed predef) (hl : l₁.Perm l₂) : s₁.SameExtent s₂ := by
  have hlookup := h₁.isSome_lookup?_congr h₂ hf hl
  have hclasses := OrderedMap.keys_perm fun flat => hlookup (.cls flat)
  have hpackages := OrderedMap.keys_perm fun full => hlookup (.package full)
  have hcount : s₁.nameCount = s₂.nameCount := by
    have hc := hclasses.length_eq
    have hp := hpackages.length_eq
    simp only [OrderedMap.keys, List.length_map] at hc hp
    simp only [nameCount, OrderedMap.size, hc, hp]
  obtain ⟨hsyms₁, htypes₁⟩ := h₁.sizes
  obtain ⟨hsyms₂, htypes₂⟩ := h₂.sizes
  have hmethods := hl.count_eq .method
  have hfields := hl.count_eq .field
  exact ⟨hclasses, hpackages, by omega, by omega⟩

end Store

end SymbolTable
