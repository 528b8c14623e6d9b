/-
What entering names does to a store.

Resolving a name enters it below whatever encloses it. `Enters` lists the
three single entries there are, each with what must be registered before,
and `Entering` is any number of them. Resolution is `Entering`
(`enterPackage_entered`, `enterClass_entered`), and all that later proofs
know of it follows from the three entries. `Asked` says besides which names
were asked for: those are found, and nothing is new but what encloses them.
-/
import Mathlib.Data.List.Forall2
import SymbolTable.Proofs.Enclosing
import SymbolTable.Proofs.StoreFacts
import SymbolTable.Resolution
import SymbolTable.Table

namespace SymbolTable

/-- The symbol of a class that is entered and not read yet. -/
def Symbol.entered (simple flat : Name) (ty : TypeId) (owner : SymbolId) : Symbol :=
  { modifiers := .empty, name := simple, owner := some owner, ty, sentinel := none,
    body := .cls { ClassInfo.named flat.dotted flat with completer := some (.classFile flat) } }

namespace Store

variable {s s' : Store}

/-- The store with a package more, below `owner`. -/
def withPackage (s : Store) (full : Name) (owner : SymbolId) : Store :=
  (s.addPackage (full.lastPart '.') full (some owner)).2.insertPackage full s.nextSymbol

/-- The store with a class more, below `owner`. -/
def withClass (s : Store) (simple flat : Name) (owner : SymbolId) : Store :=
  (s.extend ⟨.cls, some s.nextSymbol⟩ (.entered simple flat s.nextType owner)).insertClass flat
    s.nextSymbol

/-- The store with a class more that is a member of the package `owner`. -/
def withTopClass (s : Store) (flat : Name) (owner : SymbolId) : Store :=
  (s.withClass (flat.lastPart '.') flat owner).update owner
    (Symbol.mapMembers fun scope => scope.enter (flat.lastPart '.') s.nextSymbol)

/-- What entering one name does. -/
inductive Enters : Store → Store → Prop
  | package {s : Store} {full : Name} {owner : SymbolId} (fresh : s.package? full = none)
      (named : full ≠ "") (parent : s.package? full.packagePart = some owner) :
      Enters s (s.withPackage full owner)
  | top {s : Store} {flat : Name} {owner : SymbolId} (fresh : s.class? flat = none)
      (plain : flat.enclosing '$' = []) (parent : s.package? flat.packagePart = some owner) :
      Enters s (s.withTopClass flat owner)
  | nested {s : Store} {flat outer : Name} {owner : SymbolId} (fresh : s.class? flat = none)
      (inside : (flat.enclosing '$').head? = some outer) (parent : s.class? outer = some owner) :
      Enters s (s.withClass (flat.lastPart '$') flat owner)

/-- Entering any number of names. -/
abbrev Entering : Store → Store → Prop := Relation.ReflTransGen Enters

/-! ## What is kept -/

theorem keeps_withPackage {full : Name} (owner : SymbolId) (h : s.package? full = none) :
    s.Keeps (s.withPackage full owner) :=
  (s.keeps_extend _ _).trans (keeps_insertPackage _ h)

theorem keeps_withClass {flat : Name} (simple : Name) (owner : SymbolId) (h : s.class? flat = none) :
    s.Keeps (s.withClass simple flat owner) :=
  (s.keeps_extend _ _).trans (keeps_insertClass _ h)

theorem keeps_withTopClass {flat : Name} (owner : SymbolId) (h : s.class? flat = none) :
    s.Keeps (s.withTopClass flat owner) :=
  (keeps_withClass _ owner h).trans (keeps_update _ _ fun _ _ => Symbol.outline_mapMembers _ _)

theorem Enters.keeps (h : Enters s s') : s.Keeps s' := by
  cases h with
  | package fresh _ _ => exact keeps_withPackage _ fresh
  | top fresh _ _ => exact keeps_withTopClass _ fresh
  | nested fresh _ _ => exact keeps_withClass _ _ fresh

theorem Entering.keeps (h : Entering s s') : s.Keeps s' := by
  induction h with
  | refl => exact .refl s
  | tail _ hstep ih => exact ih.trans hstep.keeps

theorem class?_withClass (s : Store) (simple flat n : Name) (owner : SymbolId) :
    (s.withClass simple flat owner).class? n = if n = flat then some s.nextSymbol else s.class? n :=
  class?_insertClass ..

theorem class?_withTopClass (s : Store) (flat n : Name) (owner : SymbolId) :
    (s.withTopClass flat owner).class? n = if n = flat then some s.nextSymbol else s.class? n :=
  class?_withClass ..

theorem package?_withPackage (s : Store) (full n : Name) (owner : SymbolId) :
    (s.withPackage full owner).package? n =
      if n = full then some s.nextSymbol else s.package? n :=
  package?_insertPackage ..

theorem symbol?_withPackage (s : Store) (full : Name) (owner id : SymbolId) :
    (s.withPackage full owner).symbol? id = if id = s.nextSymbol then
      some { modifiers := .empty, name := full.lastPart '.', owner := some owner, ty := s.nextType,
             sentinel := none, body := .package ⟨full, .members s.nextSymbol, none⟩ }
    else s.symbol? id := symbol?_extend ..

theorem symbol?_withClass (s : Store) (simple flat : Name) (owner id : SymbolId) :
    (s.withClass simple flat owner).symbol? id =
      if id = s.nextSymbol then some (.entered simple flat s.nextType owner) else s.symbol? id :=
  symbol?_extend ..

theorem type?_withClass (s : Store) (simple flat : Name) (owner : SymbolId) (ty : TypeId) :
    (s.withClass simple flat owner).type? ty =
      if ty = s.nextType then some ⟨.cls, some s.nextSymbol⟩ else s.type? ty := type?_addType ..

theorem symbol?_withTopClass (s : Store) (flat : Name) (owner id : SymbolId) :
    (s.withTopClass flat owner).symbol? id =
      if id = owner then ((s.withClass (flat.lastPart '.') flat owner).symbol? id).map
        (Symbol.mapMembers fun scope => scope.enter (flat.lastPart '.') s.nextSymbol)
      else (s.withClass (flat.lastPart '.') flat owner).symbol? id := symbol?_update ..

/-! ## Looking names up -/

/-- What is registered under a name. -/
def lookup? (s : Store) : Request → Option SymbolId
  | .cls flat => s.class? flat
  | .package full => s.package? full

theorem Keeps.lookup? (h : s.Keeps s') {r : Request} {id : SymbolId} (hr : s.lookup? r = some id) :
    s'.lookup? r = some id := by
  cases r with
  | cls flat => exact h.cls hr
  | package full => exact h.package hr

theorem Keeps.isSome_lookup? (h : s.Keeps s') {r : Request} (hr : (s.lookup? r).isSome) :
    (s'.lookup? r).isSome := by
  obtain ⟨id, hid⟩ := Option.isSome_iff_exists.1 hr
  rw [h.lookup? hid]
  rfl

theorem lookup?_of_maps (hc : s'.classes = s.classes) (hp : s'.packages = s.packages) (r : Request) :
    s'.lookup? r = s.lookup? r := by
  cases r with
  | cls flat => simp only [Store.lookup?, class?, hc]
  | package full => simp only [Store.lookup?, package?, hp]

theorem lookup?_withPackage (s : Store) (full : Name) (owner : SymbolId) (r : Request) :
    (s.withPackage full owner).lookup? r =
      if r = .package full then some s.nextSymbol else s.lookup? r := by
  cases r with
  | cls n => exact (if_neg (by simp)).symm
  | package n => simp only [lookup?, package?_withPackage, Request.package.injEq]

theorem lookup?_withClass (s : Store) (simple flat : Name) (owner : SymbolId) (r : Request) :
    (s.withClass simple flat owner).lookup? r =
      if r = .cls flat then some s.nextSymbol else s.lookup? r := by
  cases r with
  | cls n => simp only [lookup?, class?_withClass, Request.cls.injEq]
  | package n => exact (if_neg (by simp)).symm

theorem lookup?_withTopClass (s : Store) (flat : Name) (owner : SymbolId) (r : Request) :
    (s.withTopClass flat owner).lookup? r =
      if r = .cls flat then some s.nextSymbol else s.lookup? r :=
  (lookup?_of_maps rfl rfl r).trans (s.lookup?_withClass (flat.lastPart '.') flat owner r)

/-- `s'` is what became of `s` as these names were entered, and whatever encloses them. -/
structure Asked (s : Store) (rs : List Request) (s' : Store) : Prop where
  entering : s.Entering s'
  found : ∀ r ∈ rs, (s'.lookup? r).isSome
  only : ∀ r, (s'.lookup? r).isSome → (s.lookup? r).isSome ∨ ∃ q ∈ rs, q.EnclosedBy r

theorem Asked.nil (s : Store) : s.Asked [] s := ⟨.refl, by simp, fun _ hr => .inl hr⟩

theorem Asked.append {s₁ s₂ : Store} {rs rs' : List Request} (h : s.Asked rs s₁)
    (h' : s₁.Asked rs' s₂) : s.Asked (rs ++ rs') s₂ where
  entering := h.entering.trans h'.entering
  found r hr := by
    rcases List.mem_append.1 hr with hr | hr
    · exact h'.entering.keeps.isSome_lookup? (h.found r hr)
    · exact h'.found r hr
  only r hr := by
    rcases h'.only r hr with hr | ⟨q, hq, hqr⟩
    · rcases h.only r hr with hr | ⟨q, hq, hqr⟩
      · exact .inl hr
      · exact .inr ⟨q, List.mem_append_left _ hq, hqr⟩
    · exact .inr ⟨q, List.mem_append_right _ hq, hqr⟩

end Store

namespace World

theorem addPackage_some (w : World) (full : Name) (owner : SymbolId) :
    (w.addPackage full (some owner)).1 = w.store.nextSymbol ∧
      (w.addPackage full (some owner)).2.store = w.store.withPackage full owner := ⟨rfl, rfl⟩

theorem addClass_store (w : World) (simple flat : Name) (owner : SymbolId) :
    (w.addClass simple flat owner).1 = w.store.nextSymbol ∧
      (w.addClass simple flat owner).2.store = w.store.withClass simple flat owner := by
  refine ⟨rfl, ?_⟩
  have h := w.store.extend_update ⟨.cls, some w.store.nextSymbol⟩
    { modifiers := .empty, name := simple, owner := some owner, ty := w.store.nextType,
      sentinel := none, body := .cls (.named flat.dotted flat) }
    (Symbol.mapClass fun info => { info with completer := some (.classFile flat) })
  exact congrArg (Store.insertClass · flat w.store.nextSymbol) h

/-! ## Resolution -/

/-- The package `full` is `id` in `s'`, which `s` became by entering it and what encloses it. -/
structure PackageEntered (s : Store) (full : Name) (id : SymbolId) (s' : Store) : Prop where
  entering : s.Entering s'
  found : s'.package? full = some id
  classes : s'.classes = s.classes
  only : ∀ r, (s'.lookup? r).isSome → (s.lookup? r).isSome ∨ (Request.package full).EnclosedBy r

theorem PackageEntered.of_found {s : Store} {full : Name} {id : SymbolId}
    (h : s.package? full = some id) : PackageEntered s full id s :=
  ⟨.refl, h, rfl, fun _ hr => .inl hr⟩

/-- A package that is missing is added once its parent is there. The names entered on the way are
shorter, so the package is still missing then. -/
theorem PackageEntered.add {s s₁ : Store} {full : Name} {owner : SymbolId}
    (h : PackageEntered s full.packagePart owner s₁) (hnew : s.package? full = none)
    (hne : full ≠ "") :
    PackageEntered s full s₁.nextSymbol (s₁.withPackage full owner) := by
  have hnew₁ : s₁.package? full = none := by
    rw [Option.eq_none_iff_forall_ne_some]
    intro id hid
    rcases h.only (.package full) (by simp [Store.lookup?, hid]) with hs | hs
    · simp [Store.lookup?, hnew] at hs
    · exact absurd hs.name_le (Nat.not_le.2 (Name.packagePart_lt hne))
  refine ⟨h.entering.tail (.package hnew₁ hne h.found), ?_, h.classes, fun r hr => ?_⟩
  · rw [Store.package?_withPackage, if_pos rfl]
  · rw [Store.lookup?_withPackage] at hr
    split at hr
    · next he => exact .inr (he ▸ .refl)
    · exact (h.only r hr).imp_right (.head (Request.parent?_package hne))

theorem enterPackageIn_entered (w : World) {full : Name} {outer : List Name}
    (hl : full.outerPackages = outer) (hroot : (w.store.package? "").isSome) :
    PackageEntered w.store full (w.enterPackageIn full outer).1
      (w.enterPackageIn full outer).2.store := by
  induction outer generalizing w full with
  | nil =>
    have hfull : full = "" := Decidable.byContradiction fun hne => by
      simp [Name.outerPackages_of_ne hne] at hl
    subst hfull
    obtain ⟨id, hid⟩ := Option.isSome_iff_exists.1 hroot
    simp only [enterPackageIn, hid]
    exact .of_found hid
  | cons parent outer ih =>
    have hne : full ≠ "" := by
      intro hempty
      simp [hempty, Name.outerPackages_empty] at hl
    rw [Name.outerPackages_of_ne hne, List.cons.injEq] at hl
    obtain ⟨rfl, hl⟩ := hl
    simp only [enterPackageIn]
    cases hp : w.store.package? full with
    | some id => exact .of_found hp
    | none =>
      have hin := ih (w.see full.packagePart) hl hroot
      rw [(addPackage_some _ full _).1, (addPackage_some _ full _).2]
      exact hin.add hp hne

/-- Resolving a package enters it and the packages around it that are missing. -/
theorem enterPackage_entered (w : World) (full : Name) (hroot : (w.store.package? "").isSome) :
    PackageEntered w.store full (w.enterPackage full).1 (w.enterPackage full).2.store :=
  w.enterPackageIn_entered rfl hroot

/-- The class `flat` is `id` in `s'`, which `s` became by entering it and what encloses it. -/
structure ClassEntered (s : Store) (flat : Name) (id : SymbolId) (s' : Store) : Prop where
  entering : s.Entering s'
  found : s'.class? flat = some id
  only : ∀ r, (s'.lookup? r).isSome → (s.lookup? r).isSome ∨ (Request.cls flat).EnclosedBy r

theorem ClassEntered.of_found {s : Store} {flat : Name} {id : SymbolId}
    (h : s.class? flat = some id) : ClassEntered s flat id s :=
  ⟨.refl, h, fun _ hr => .inl hr⟩

theorem addTopClass_store (w : World) {flat : Name} {owner : SymbolId} {w₁ : World}
    (h : ((w.see flat.dotted).see flat.packagePart).enterPackage flat.packagePart = (owner, w₁)) :
    (w.addTopClass flat).1 = w₁.store.nextSymbol ∧
      (w.addTopClass flat).2.store = w₁.store.withTopClass flat owner := by
  simp only [addTopClass, h, Store.withTopClass, ← (w₁.addClass_store _ flat owner).2]
  exact ⟨(w₁.addClass_store _ flat owner).1, rfl⟩

theorem addTopClass_entered (w : World) {flat : Name} (hroot : (w.store.package? "").isSome)
    (hnew : w.store.class? flat = none) (hplain : flat.enclosing '$' = []) :
    ClassEntered w.store flat (w.addTopClass flat).1 (w.addTopClass flat).2.store := by
  have hp := enterPackage_entered ((w.see flat.dotted).see flat.packagePart) flat.packagePart hroot
  generalize hr : ((w.see flat.dotted).see flat.packagePart).enterPackage flat.packagePart = r at hp
  obtain ⟨owner, w₁⟩ := r
  have hnew₁ : w₁.store.class? flat = none := by
    unfold Store.class?
    rw [hp.classes]
    exact hnew
  rw [(w.addTopClass_store hr).1, (w.addTopClass_store hr).2]
  refine ⟨hp.entering.tail (.top hnew₁ hplain hp.found), ?_, fun r hr => ?_⟩
  · rw [Store.class?_withTopClass, if_pos rfl]
  · rw [Store.lookup?_withTopClass] at hr
    split at hr
    · next he => exact .inr (he ▸ .refl)
    · exact (hp.only r hr).imp_right (.head (Request.parent?_top hplain))

/-- A nested class that is missing is added once its outer class is there. -/
theorem ClassEntered.add {s s₁ : Store} {flat outer : Name} {owner : SymbolId}
    (h : ClassEntered s outer owner s₁) (hnew : s.class? flat = none)
    (hl : (flat.enclosing '$').head? = some outer) :
    ClassEntered s flat s₁.nextSymbol (s₁.withClass (flat.lastPart '$') flat owner) := by
  have hnew₁ : s₁.class? flat = none := by
    rw [Option.eq_none_iff_forall_ne_some]
    intro id hid
    rcases h.only (.cls flat) (by simp [Store.lookup?, hid]) with hs | hs
    · simp [Store.lookup?, hnew] at hs
    · exact absurd hs.name_le (Nat.not_le.2 (Name.shorter_of_head?_enclosing hl))
  refine ⟨h.entering.tail (.nested hnew₁ hl h.found), ?_, fun r hr => ?_⟩
  · rw [Store.class?_withClass, if_pos rfl]
  · rw [Store.lookup?_withClass] at hr
    split at hr
    · next he => exact .inr (he ▸ .refl)
    · exact (h.only r hr).imp_right (.head (Request.parent?_nested hl))

theorem enterClassIn_entered (w : World) {flat : Name} {outer : List Name}
    (hl : flat.enclosing '$' = outer) (hroot : (w.store.package? "").isSome) :
    ClassEntered w.store flat (w.enterClassIn flat outer).1 (w.enterClassIn flat outer).2.store := by
  induction outer generalizing w flat with
  | nil =>
    simp only [enterClassIn]
    cases hc : w.store.class? flat with
    | some id => exact .of_found hc
    | none => exact w.addTopClass_entered hroot hc hl
  | cons parent outer ih =>
    have hhead : (flat.enclosing '$').head? = some parent := by rw [hl, List.head?_cons]
    obtain ⟨p, inner, hcut⟩ := Name.exists_cut (Name.mem_of_head?_enclosing hhead)
    obtain ⟨rfl, hrest⟩ := List.cons.inj (hcut.enclosing.symm.trans hl)
    simp only [enterClassIn]
    cases hc : w.store.class? flat with
    | some id => exact .of_found hc
    | none =>
      have hin := ih ((w.see flat.dotted).see p) hrest hroot
      rw [(addClass_store _ _ flat _).1, (addClass_store _ _ flat _).2]
      exact hin.add hc hhead

/-- Resolving a class enters it and whatever of what encloses it is missing. -/
theorem enterClass_entered (w : World) (flat : Name) (hroot : (w.store.package? "").isSome) :
    ClassEntered w.store flat (w.enterClass flat).1 (w.enterClass flat).2.store :=
  w.enterClassIn_entered rfl hroot

end World

/-! ## Registered names -/

namespace Store

variable {s s' : Store}

/-- The symbol is the class named `flat`, and its type is a class type. -/
def IsClass (s : Store) (flat : Name) (id : SymbolId) : Prop :=
  ∃ sym info, s.symbol? id = some sym ∧ sym.body = .cls info ∧ info.flatName = flat ∧
    s.form? sym.ty = some .cls

/-- The symbol is the package named `full`. -/
def IsPackage (s : Store) (full : Name) (id : SymbolId) : Prop :=
  ∃ sym info, s.symbol? id = some sym ∧ sym.body = .package info ∧ info.fullName = full

theorem Keeps.isClass (hk : s.Keeps s') {flat : Name} {id : SymbolId} (h : s.IsClass flat id) :
    s'.IsClass flat id := by
  obtain ⟨sym, info, hs, hb, hf, ht⟩ := h
  obtain ⟨sym', hs', ho⟩ := hk.symbol? hs
  obtain ⟨info', hb', hf', -⟩ := Symbol.classInfo_of_outline ho hb
  exact ⟨sym', info', hs', hb', hf'.trans hf, Symbol.ty_of_outline ho ▸ hk.form ht⟩

theorem Keeps.isPackage (hk : s.Keeps s') {full : Name} {id : SymbolId} (h : s.IsPackage full id) :
    s'.IsPackage full id := by
  obtain ⟨sym, info, hs, hb, hf⟩ := h
  obtain ⟨sym', hs', ho⟩ := hk.symbol? hs
  obtain ⟨info', hb', hf'⟩ := Symbol.packageInfo_of_outline ho hb
  exact ⟨sym', info', hs', hb', hf'.trans hf⟩

/-- The class map leads from flat names to the classes that have them, the package map from full
names to packages, and the root package is registered. -/
structure Registered (s : Store) : Prop where
  cls : ∀ {flat id}, s.class? flat = some id → s.IsClass flat id
  package : ∀ {full id}, s.package? full = some id → s.IsPackage full id
  root : (s.package? "").isSome

theorem Registered.hasSymbol (h : s.Registered) {flat : Name} {id : SymbolId}
    (hc : s.class? flat = some id) : s.HasSymbol id := by
  obtain ⟨sym, -, hs, -⟩ := h.cls hc
  exact hasSymbol_of_symbol? hs

theorem Registered.hasSymbol_package (h : s.Registered) {full : Name} {id : SymbolId}
    (hp : s.package? full = some id) : s.HasSymbol id := by
  obtain ⟨sym, -, hs, -⟩ := h.package hp
  exact hasSymbol_of_symbol? hs

theorem Registered.hasSymbol_lookup? (h : s.Registered) {r : Request} {id : SymbolId}
    (hr : s.lookup? r = some id) : s.HasSymbol id := by
  cases r with
  | cls flat => exact h.hasSymbol hr
  | package full => exact h.hasSymbol_package hr

/-- A class is registered under its own flat name only. -/
theorem Registered.flat_eq (h : s.Registered) {flat flat' : Name} {id : SymbolId}
    (hc : s.class? flat = some id) (hc' : s.class? flat' = some id) : flat = flat' := by
  obtain ⟨sym, info, hs, hb, hflat, -⟩ := h.cls hc
  obtain ⟨sym', info', hs', hb', hflat', -⟩ := h.cls hc'
  obtain rfl := Option.some.inj (hs.symm.trans hs')
  obtain rfl := SymbolBody.cls.inj (hb.symm.trans hb')
  exact hflat.symm.trans hflat'

/-- Registered names stay registered; only the new ones are to be looked at. -/
theorem Registered.of_keeps (h : s.Registered) (hk : s.Keeps s')
    (hcls : ∀ flat id, s'.class? flat = some id → s.class? flat = some id ∨ s'.IsClass flat id)
    (hpkg : ∀ full id, s'.package? full = some id →
      s.package? full = some id ∨ s'.IsPackage full id) : s'.Registered where
  cls {flat id} hc := (hcls flat id hc).elim (fun hc => hk.isClass (h.cls hc)) fun hc => hc
  package {full id} hp := (hpkg full id hp).elim (fun hp => hk.isPackage (h.package hp)) fun hp => hp
  root := by
    obtain ⟨id, hid⟩ := Option.isSome_iff_exists.1 h.root
    simp [hk.package hid]

/-- A store with the same maps and more behind them. -/
theorem Registered.of_maps (h : s.Registered) (hk : s.Keeps s') (hc : s'.classes = s.classes)
    (hp : s'.packages = s.packages) : s'.Registered :=
  h.of_keeps hk (fun _ _ he => .inl (by simpa only [class?, hc] using he))
    (fun _ _ he => .inl (by simpa only [package?, hp] using he))

theorem isPackage_withPackage (s : Store) (full : Name) (owner : SymbolId) :
    (s.withPackage full owner).IsPackage full s.nextSymbol :=
  ⟨_, _, by rw [symbol?_withPackage, if_pos rfl], rfl, rfl⟩

/-- A class found under a name after an entry was found before, or is the one just entered. -/
theorem Enters.class? (h : s.Registered) (he : Enters s s') {n : Name} {id : SymbolId}
    (hc : s'.class? n = some id) : s.class? n = some id ∨ s'.form? s.nextType = some .cls ∧
      ∃ simple owner, s'.symbol? id = some (.entered simple n s.nextType owner) := by
  have hform : ∀ simple flat owner, (s.withClass simple flat owner).form? s.nextType = some .cls := by
    intro simple flat owner
    simp [form?, type?_withClass]
  cases he with
  | package _ _ _ => exact .inl hc
  | @top flat owner _ _ parent =>
    rw [class?_withTopClass] at hc
    split at hc
    · next hn =>
      obtain rfl := Option.some.inj hc
      have howner := (h.hasSymbol_package parent).ne_next.symm
      refine .inr ⟨hform (flat.lastPart '.') flat owner, flat.lastPart '.', owner, ?_⟩
      rw [symbol?_withTopClass, if_neg howner, symbol?_withClass, if_pos rfl, hn]
    · exact .inl hc
  | nested _ _ _ =>
    rw [class?_withClass] at hc
    split at hc
    · next hn =>
      obtain rfl := Option.some.inj hc
      exact .inr ⟨hform _ _ _, _, _, by rw [symbol?_withClass, if_pos rfl, hn]⟩
    · exact .inl hc

theorem Registered.enters (h : s.Registered) (he : Enters s s') : s'.Registered := by
  refine h.of_keeps he.keeps (fun n id hc => ?_) fun n id hp => ?_
  · rcases he.class? h hc with hc | ⟨hform, simple, owner, hs⟩
    · exact .inl hc
    · exact .inr ⟨_, _, hs, rfl, rfl, hform⟩
  · cases he with
    | package _ _ _ =>
      rw [package?_withPackage] at hp
      split at hp
      · next hn =>
        obtain rfl := Option.some.inj hp
        subst hn
        exact .inr (s.isPackage_withPackage _ _)
      · exact .inl hp
    | top _ _ _ => exact .inl hp
    | nested _ _ _ => exact .inl hp

theorem Registered.entering (h : s.Registered) (he : Entering s s') : s'.Registered := by
  induction he with
  | refl => exact h
  | tail _ hstep ih => exact ih.enters hstep

/-- Only packages change as names are entered: they get members. -/
theorem Enters.symbol? (h : s.Registered) (he : Enters s s') {id : SymbolId} {sym : Symbol}
    (hs : s.symbol? id = some sym) (hb : ∀ info, sym.body ≠ .package info) :
    s'.symbol? id = some sym := by
  have hne := (hasSymbol_of_symbol? hs).ne_next
  cases he with
  | package _ _ _ => rw [symbol?_withPackage, if_neg hne, hs]
  | @top flat owner _ _ parent =>
    have howner : id ≠ owner := by
      rintro rfl
      obtain ⟨sym', info, hs', hb', -⟩ := h.package parent
      rw [hs, Option.some.injEq] at hs'
      exact hb info (hs' ▸ hb')
    rw [symbol?_withTopClass, if_neg howner, symbol?_withClass, if_neg hne, hs]
  | nested _ _ _ => rw [symbol?_withClass, if_neg hne, hs]

theorem Entering.symbol? (h : s.Registered) (he : Entering s s') {id : SymbolId} {sym : Symbol}
    (hs : s.symbol? id = some sym) (hb : ∀ info, sym.body ≠ .package info) :
    s'.symbol? id = some sym := by
  induction he with
  | refl => exact hs
  | tail hpath hstep ih => exact hstep.symbol? (h.entering hpath) ih hb

theorem Entering.classInfo? (h : s.Registered) (he : Entering s s') {id : SymbolId} {info : ClassInfo}
    (hc : s.classInfo? id = some info) : s'.classInfo? id = some info := by
  obtain ⟨sym, hs, hb⟩ := classInfo?_eq_some.1 hc
  exact classInfo?_eq_some.2 ⟨sym, he.symbol? h hs (by simp [hb]), hb⟩

/-- A class found after entering names was there before, or is one of those entered. -/
theorem Enters.classes (h : s.Registered) (he : Enters s s') {id : SymbolId} {sym : Symbol}
    {info : ClassInfo} (hs : s'.symbol? id = some sym) (hb : sym.body = .cls info) :
    s.symbol? id = some sym ∨ s'.class? info.flatName = some id ∧
      ∃ simple ty owner, sym = .entered simple info.flatName ty owner := by
  cases he with
  | package _ _ _ =>
    rw [symbol?_withPackage] at hs
    split at hs
    · obtain rfl := Option.some.inj hs
      simp at hb
    · exact .inl hs
  | @top flat owner _ _ parent =>
    rw [symbol?_withTopClass] at hs
    split at hs
    · next ho =>
      subst ho
      obtain ⟨sym', pinfo, hs', hb', -⟩ := h.package parent
      rw [symbol?_withClass, if_neg (hasSymbol_of_symbol? hs').ne_next, hs'] at hs
      obtain rfl := Option.some.inj hs
      simp [Symbol.mapMembers, hb'] at hb
    · rw [symbol?_withClass] at hs
      split at hs
      · next hid =>
        subst hid
        obtain rfl := Option.some.inj hs
        obtain rfl := SymbolBody.cls.inj hb
        exact .inr ⟨by rw [class?_withTopClass]; exact if_pos rfl, _, _, _, rfl⟩
      · exact .inl hs
  | nested _ _ _ =>
    rw [symbol?_withClass] at hs
    split at hs
    · next hid =>
      subst hid
      obtain rfl := Option.some.inj hs
      obtain rfl := SymbolBody.cls.inj hb
      exact .inr ⟨by rw [class?_withClass]; exact if_pos rfl, _, _, _, rfl⟩
    · exact .inl hs

/-- `ty` is the type of the class registered under `flat`. -/
def ClassType (s : Store) (flat : Name) (ty : TypeId) : Prop :=
  ∃ id, s.class? flat = some id ∧ s.HasSymbol id ∧ s.typeOf id = ty

theorem Registered.classType (h : s.Registered) {flat : Name} {id : SymbolId}
    (hc : s.class? flat = some id) : s.ClassType flat (s.typeOf id) :=
  ⟨id, hc, h.hasSymbol hc, rfl⟩

theorem Keeps.classType (h : s.Keeps s') {flat : Name} {ty : TypeId} (hc : s.ClassType flat ty) :
    s'.ClassType flat ty := by
  obtain ⟨id, hid, hs, rfl⟩ := hc
  exact ⟨id, h.cls hid, h.hasSymbol hs, h.typeOf hs⟩

end Store

/-! ## Asking the class path's resolver -/

namespace Resolver

theorem askType_eq (r : Resolver) (flat : Name) (w : World) :
    r.askType flat w = ((r.askClass flat (w.see flat)).2.store.typeOf (r.askClass flat (w.see flat)).1,
      (r.askClass flat (w.see flat)).2) := rfl

theorem askTypes_cons (r : Resolver) (flat : Name) (flats : List Name) (w : World) :
    r.askTypes (flat :: flats) w =
      ((r.askType flat w).1 :: (r.askTypes flats (r.askType flat w).2).1,
        (r.askTypes flats (r.askType flat w).2).2) := rfl

end Resolver

open Store

/-- The tier lists the types of its entries' classes. -/
structure Tier.Resolves (s : Store) (entries : List CatalogEntry) (t : Tier) : Prop where
  entries : t.map (·.entry) = entries
  types : ∀ c ∈ t, s.ClassType c.entry.flat c.ty

theorem Tier.Resolves.of_types {s : Store} {entries : List CatalogEntry} {tys : List TypeId}
    (h : List.Forall₂ (fun e ty => s.ClassType e.flat ty) entries tys) :
    Tier.Resolves s entries (List.zipWith ResolvedClass.mk entries tys) := by
  induction h with
  | nil => exact ⟨rfl, by simp⟩
  | cons hc _ ih =>
    refine ⟨by rw [List.zipWith_cons_cons, List.map_cons, ih.entries], fun c hm => ?_⟩
    rcases List.mem_cons.1 hm with rfl | hm
    · exact hc
    · exact ih.types c hm

theorem Tier.Resolves.mono {s s' : Store} {entries : List CatalogEntry} {t : Tier}
    (h : t.Resolves s entries) (hk : s.Keeps s') : t.Resolves s' entries :=
  ⟨h.entries, fun c hc => hk.classType (h.types c hc)⟩

/-- A label that the catalogue lists stands for the type of a class of the tier. -/
theorem Tier.Resolves.typeOf_mem {s : Store} {entries : List CatalogEntry} {t : Tier}
    (h : t.Resolves s entries) {label : String} {e : CatalogEntry}
    (he : entries.find? (fun e => decide (e.label = label)) = some e) :
    ∃ c ∈ t, c.entry = e ∧ t.typeOf label = c.ty := by
  rw [← h.entries, List.find?_map] at he
  obtain ⟨c, hc, rfl⟩ := Option.map_eq_some_iff.1 he
  have hf : t.find? (fun c => decide (c.entry.label = label)) = some c := hc
  exact ⟨c, List.mem_of_find?_eq_some hf, rfl, by simp [Tier.typeOf, hf]⟩

theorem Tier.Resolves.typeOf {s : Store} {entries : List CatalogEntry} {t : Tier}
    (h : t.Resolves s entries) {label : String} {e : CatalogEntry}
    (he : entries.find? (fun e => decide (e.label = label)) = some e) :
    s.ClassType e.flat (t.typeOf label) := by
  obtain ⟨c, hc, rfl, hty⟩ := h.typeOf_mem he
  exact hty ▸ h.types c hc

namespace ClassPath

theorem askClass_entered (flat : Name) {w : World} (h : w.store.Registered) :
    World.ClassEntered w.store flat (resolver.askClass flat w).1 (resolver.askClass flat w).2.store :=
  World.enterClass_entered { w with requests := w.requests ++ [.cls flat] } flat h.root

theorem askPackage_entered (full : Name) {w : World} (h : w.store.Registered) :
    World.PackageEntered w.store full (resolver.askPackage full w).1
      (resolver.askPackage full w).2.store :=
  World.enterPackage_entered { w with requests := w.requests ++ [.package full] } full h.root

/-- The name asked for is entered, and no other than what encloses it. -/
theorem askClass_asked (flat : Name) {w : World} (h : w.store.Registered) :
    w.store.Asked [.cls flat] (resolver.askClass flat w).2.store := by
  have he := askClass_entered flat h
  exact ⟨he.entering, by simp [lookup?, he.found], fun r hr => by simpa using he.only r hr⟩

theorem askPackage_asked (full : Name) {w : World} (h : w.store.Registered) :
    w.store.Asked [.package full] (resolver.askPackage full w).2.store := by
  have he := askPackage_entered full h
  exact ⟨he.entering, by simp [lookup?, he.found], fun r hr => by simpa using he.only r hr⟩

theorem askType_asked (flat : Name) {w : World} (h : w.store.Registered) :
    w.store.Asked [.cls flat] (resolver.askType flat w).2.store ∧
      (resolver.askType flat w).2.store.ClassType flat (resolver.askType flat w).1 := by
  have he := askClass_entered flat (w := w.see flat) h
  have hasked := askClass_asked flat (w := w.see flat) h
  rw [Resolver.askType_eq]
  generalize resolver.askClass flat (w.see flat) = r at he hasked ⊢
  exact ⟨hasked, Registered.classType (h.entering he.entering) he.found⟩

theorem askTypes_asked (flats : List Name) {w : World} (h : w.store.Registered) :
    w.store.Asked (flats.map .cls) (resolver.askTypes flats w).2.store ∧
      List.Forall₂ (resolver.askTypes flats w).2.store.ClassType flats
        (resolver.askTypes flats w).1 := by
  induction flats generalizing w with
  | nil => exact ⟨.nil _, .nil⟩
  | cons flat flats ih =>
    obtain ⟨ha, hty⟩ := askType_asked flat h
    obtain ⟨ha', htys⟩ := ih (h.entering ha.entering)
    rw [Resolver.askTypes_cons]
    exact ⟨ha.append ha', .cons (ha'.entering.keeps.classType hty) htys⟩

theorem askTier_asked (entries : List CatalogEntry) {w : World} (h : w.store.Registered) :
    w.store.Asked ((Catalog.flatNames entries).map .cls) (resolver.askTier entries w).2.store ∧
      (resolver.askTier entries w).1.Resolves (resolver.askTier entries w).2.store entries := by
  obtain ⟨ha, htys⟩ := askTypes_asked (Catalog.flatNames entries) h
  exact ⟨ha, .of_types (List.forall₂_map_left_iff.1 htys)⟩

end ClassPath

end SymbolTable
