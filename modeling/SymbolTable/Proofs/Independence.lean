/-
Building a table reads nothing but the store.

Names are entered into the name table and requests are noted as the table is
built, and the class path lies open, but no step looks at any of them: the
answer of each step and the store it leaves depend on the store it found
alone, and the class path stays as it is (`Oblivious`). The store is cleared
first, so two worlds with nothing in common get one table and one store.
-/
import SymbolTable.Proofs.Construction

namespace SymbolTable

/-! ## Operations of a world -/

namespace World

variable {α β : Type}

/-- The worlds have one store, and the first has the class path `path`. -/
structure Alike (path : ClassPath) (w w' : World) : Prop where
  store : w.store = w'.store
  path : w.path = path

theorem Alike.see {path : ClassPath} {w w' : World} (h : Alike path w w') (n : Name) :
    Alike path (w.see n) (w'.see n) := ⟨h.store, h.path⟩

/-- In worlds with one store, `f` gives one answer and leaves one store; the class path stays. -/
def Oblivious (f : World → α × World) : Prop :=
  ∀ ⦃path : ClassPath⦄ (w w' : World), Alike path w w' →
    ∃ a v v', f w = (a, v) ∧ f w' = (a, v') ∧ Alike path v v'

theorem Oblivious.path {f : World → α × World} (h : Oblivious f) (w : World) :
    (f w).2.path = w.path := by
  obtain ⟨a, v, v', hv, _, halike⟩ := h w w ⟨rfl, rfl⟩
  rw [hv, halike.path]

theorem oblivious_give (a : α) : Oblivious fun w => (a, w) :=
  fun _ w w' h => ⟨a, w, w', rfl, rfl, h⟩

theorem oblivious_onStore (f : Store → α × Store) : Oblivious fun w => w.onStore f := by
  intro path w w' h
  simp only [onStore, h.store]
  exact ⟨_, _, _, rfl, rfl, rfl, h.path⟩

/-! ## Resolving names -/

theorem addPackage_oblivious (full : Name) (owner : Option SymbolId) :
    Oblivious fun w => w.addPackage full owner := by
  intro path w w' h
  simp only [addPackage, see, h.store]
  exact ⟨_, _, _, rfl, rfl, rfl, h.path⟩

theorem enterPackageIn_oblivious (full : Name) (outer : List Name) :
    Oblivious fun w => w.enterPackageIn full outer := by
  induction outer generalizing full with
  | nil =>
    intro path w w' h
    simp only [enterPackageIn, h.store]
    split
    · next id _ => exact ⟨id, w, w', rfl, rfl, h⟩
    · exact addPackage_oblivious full none w w' h
  | cons parent outer ih =>
    intro path w w' h
    simp only [enterPackageIn, h.store]
    split
    · next id _ => exact ⟨id, w, w', rfl, rfl, h⟩
    · obtain ⟨owner, v, v', hw, hw', hv⟩ := ih parent (w.see parent) (w'.see parent) (h.see parent)
      simp only [hw, hw']
      exact addPackage_oblivious full (some owner) v v' hv

theorem addClass_oblivious (simple flat : Name) (owner : SymbolId) :
    Oblivious fun w => w.addClass simple flat owner := by
  intro path w w' h
  simp only [addClass, see, h.store]
  exact ⟨_, _, _, rfl, rfl, rfl, h.path⟩

theorem addTopClass_oblivious (flat : Name) : Oblivious fun w => w.addTopClass flat := by
  intro path w w' h
  obtain ⟨owner, v, v', hw, hw', hv⟩ :=
    enterPackageIn_oblivious flat.packagePart flat.packagePart.outerPackages
      ((w.see flat.dotted).see flat.packagePart) ((w'.see flat.dotted).see flat.packagePart)
      ((h.see _).see _)
  obtain ⟨id, u, u', hv, hv', hu⟩ := addClass_oblivious (flat.lastPart '.') flat owner v v' hv
  simp only [addTopClass, enterPackage, hw, hw', hv, hv', hu.store]
  exact ⟨_, _, _, rfl, rfl, rfl, hu.path⟩

theorem enterClassIn_oblivious (flat : Name) (outer : List Name) :
    Oblivious fun w => w.enterClassIn flat outer := by
  induction outer generalizing flat with
  | nil =>
    intro path w w' h
    simp only [enterClassIn, h.store]
    split
    · next id _ => exact ⟨id, w, w', rfl, rfl, h⟩
    · exact addTopClass_oblivious flat w w' h
  | cons parent outer ih =>
    intro path w w' h
    simp only [enterClassIn, h.store]
    split
    · next id _ => exact ⟨id, w, w', rfl, rfl, h⟩
    · obtain ⟨owner, v, v', hw, hw', hv⟩ :=
        ih parent ((w.see flat.dotted).see parent) ((w'.see flat.dotted).see parent) ((h.see _).see _)
      simp only [hw, hw']
      exact addClass_oblivious (flat.lastPart '$') flat owner v v' hv

/-! ## Operators -/

theorem enterOperator_oblivious (predef mc : SymbolId) (e : OperatorEntry) :
    Oblivious (enterOperator predef mc e) := by
  intro path w w' h
  simp only [enterOperator, see, h.store]
  split <;> exact ⟨_, _, _, rfl, rfl, rfl, h.path⟩

theorem enterOperators_oblivious (predef mc : SymbolId) (entries : List OperatorEntry) :
    Oblivious (enterOperators predef mc entries) := by
  induction entries with
  | nil => exact oblivious_give (Except.ok [])
  | cons e rest ih =>
    intro path w w' h
    obtain ⟨r, v, v', hw, hw', hv⟩ := enterOperator_oblivious predef mc e w w' h
    simp only [enterOperators, hw, hw']
    cases r with
    | error e => exact ⟨_, v, v', rfl, rfl, hv⟩
    | ok id =>
      obtain ⟨r, u, u', hw, hw', hu⟩ := ih v v' hv
      simp only [hw, hw']
      cases r <;> exact ⟨_, u, u', rfl, rfl, hu⟩

theorem enterBuiltins_oblivious (types : OperandTypes) (predef mc : SymbolId) :
    Oblivious (enterBuiltins types predef mc) := by
  intro path w w' h
  simp only [enterBuiltins]
  split
  · exact ⟨_, w, w', rfl, rfl, h⟩
  · obtain ⟨r, v₁, v₁', hw, hw', h₁⟩ :=
      enterOperators_oblivious predef mc (Builtin.unaries.map types.entry) w w' h
    simp only [hw, hw']
    cases r with
    | error e => exact ⟨_, v₁, v₁', rfl, rfl, h₁⟩
    | ok ids =>
      obtain ⟨r, v₂, v₂', hw, hw', h₂⟩ :=
        enterOperator_oblivious predef mc (types.entry Builtin.nullCheck) v₁ v₁' h₁
      simp only [hw, hw']
      cases r with
      | error e => exact ⟨_, v₂, v₂', rfl, rfl, h₂⟩
      | ok nullCheck =>
        obtain ⟨r, v₃, v₃', hw, hw', h₃⟩ :=
          enterOperators_oblivious predef mc (Builtin.binaries.map types.entry) v₂ v₂' h₂
        simp only [hw, hw']
        cases r <;> exact ⟨_, v₃, v₃', rfl, rfl, h₃⟩

end World

open World

namespace ClassPath

theorem askClass_oblivious (flat : Name) : Oblivious (resolver.askClass flat) := by
  intro path w w' h
  exact enterClassIn_oblivious flat (flat.enclosing '$')
    { w with requests := w.requests ++ [.cls flat] }
    { w' with requests := w'.requests ++ [.cls flat] } ⟨h.store, h.path⟩

theorem askType_oblivious (flat : Name) : Oblivious (resolver.askType flat) := by
  intro path w w' h
  obtain ⟨id, v, v', hw, hw', hv⟩ := askClass_oblivious flat (w.see flat) (w'.see flat) (h.see flat)
  simp only [Resolver.askType, hw, hw']
  exact ⟨v.store.typeOf id, v, v', rfl, by rw [hv.store], hv⟩

theorem askTypes_oblivious (flats : List Name) : Oblivious (resolver.askTypes flats) := by
  induction flats with
  | nil => exact oblivious_give []
  | cons flat rest ih =>
    intro path w w' h
    obtain ⟨ty, v, v', hw, hw', hv⟩ := askType_oblivious flat w w' h
    obtain ⟨tys, u, u', hv, hv', hu⟩ := ih v v' hv
    simp only [Resolver.askTypes, hw, hw', hv, hv']
    exact ⟨ty :: tys, u, u', rfl, rfl, hu⟩

theorem askTier_oblivious (tier : List CatalogEntry) : Oblivious (resolver.askTier tier) := by
  intro path w w' h
  obtain ⟨tys, v, v', hw, hw', hv⟩ := askTypes_oblivious (Catalog.flatNames tier) w w' h
  simp only [Resolver.askTier, hw, hw']
  exact ⟨_, v, v', rfl, rfl, hv⟩

end ClassPath

/-! ## Steps of a build -/

namespace TableM

variable {α β : Type}

/-- In worlds with one store, the steps give one result and leave one store; the class path
stays. -/
def Oblivious (m : TableM α) : Prop := World.Oblivious m.run

theorem Oblivious.bind {m : TableM α} {f : α → TableM β} (hm : m.Oblivious)
    (hf : ∀ a, (f a).Oblivious) : (m >>= f).Oblivious := by
  intro path w w' h
  obtain ⟨r, v, v', hw, hw', hv⟩ := hm w w' h
  rw [run_bind, run_bind, hw, hw']
  cases r with
  | error e => exact ⟨_, v, v', rfl, rfl, hv⟩
  | ok a => exact hf a v v' hv

theorem oblivious_pure (a : α) : (pure a : TableM α).Oblivious := oblivious_give (Except.ok a)

theorem oblivious_ofWorld {f : World → Except TableError α × World} (hf : World.Oblivious f) :
    (ofWorld f).Oblivious := hf

theorem oblivious_total {f : World → α × World} (hf : World.Oblivious f) : (total f).Oblivious := by
  intro path w w' h
  obtain ⟨a, v, v', hw, hw', hv⟩ := hf w w' h
  simp only [run, total, ofWorld, ExceptT.run, ExceptT.mk, hw, hw']
  exact ⟨.ok a, v, v', rfl, rfl, hv⟩

theorem oblivious_add (f : Store → α × Store) : (add f).Oblivious :=
  oblivious_total (oblivious_onStore f)

theorem oblivious_change (f : Store → Store) : (change f).Oblivious :=
  oblivious_total (oblivious_onStore fun s => ((), f s))

theorem oblivious_store : store.Oblivious :=
  oblivious_total (oblivious_onStore fun s => (s, s))

theorem oblivious_attempt (f : Store → Except TableError Store) : (attempt f).Oblivious := by
  intro path w w' h
  simp only [attempt, run, ofWorld, ExceptT.run, ExceptT.mk, h.store]
  split
  · exact ⟨_, _, _, rfl, rfl, rfl, h.path⟩
  · exact ⟨_, w, w', rfl, rfl, h⟩

theorem oblivious_ask (flat : Name) : (ask ClassPath.resolver flat).Oblivious :=
  oblivious_total fun _ w w' h => ClassPath.askClass_oblivious flat (w.see flat) (w'.see flat) (h.see flat)

theorem oblivious_askType (flat : Name) : (askType ClassPath.resolver flat).Oblivious :=
  oblivious_total (ClassPath.askType_oblivious flat)

end TableM

namespace Build

open TableM

theorem enterSentinels_oblivious (messages : Messages) : (enterSentinels messages).Oblivious :=
  (oblivious_add _).bind fun _ => (oblivious_add _).bind fun _ => (oblivious_change _).bind fun _ =>
  (oblivious_change _).bind fun _ => (oblivious_add _).bind fun _ => (oblivious_change _).bind fun _ =>
  (oblivious_change _).bind fun _ => (oblivious_add _).bind fun _ => (oblivious_add _).bind fun _ =>
  (oblivious_add _).bind fun _ => (oblivious_change _).bind fun _ => (oblivious_attempt _).bind fun _ =>
  (oblivious_add _).bind fun _ => (oblivious_change _).bind fun _ => (oblivious_attempt _).bind fun _ =>
  oblivious_pure _

theorem register_oblivious (p : Primitives) (root : SymbolId) (tag : Tag) (name : Name)
    (box : Option String) : World.Oblivious (p.register root tag name box) := by
  intro path w w' h
  simp only [Primitives.register, World.see, h.store]
  split
  · exact ⟨_, w, w', rfl, rfl, h⟩
  · split
    · exact ⟨_, _, _, rfl, rfl, rfl, h.path⟩
    · cases box <;> exact ⟨_, _, _, rfl, rfl, rfl, h.path⟩

theorem registerAll_oblivious (root : SymbolId) (p : Primitives)
    (classes : List (Tag × Name × Option String)) : (registerAll root p classes).Oblivious := by
  induction classes generalizing p with
  | nil => exact oblivious_pure p
  | cons c rest ih =>
    obtain ⟨tag, name, box⟩ := c
    exact (oblivious_ofWorld (register_oblivious p root tag name box)).bind fun (_, p) => ih p

theorem registerExisting_oblivious (p : Primitives) (tag : Tag) (ty : TypeId) (symbol : SymbolId) :
    (registerExisting p tag ty symbol).Oblivious := by
  intro path w w' h
  simp only [registerExisting, run, ofWorld, ExceptT.run, ExceptT.mk, h.store]
  split
  · exact ⟨_, _, _, rfl, rfl, rfl, h.path⟩
  · exact ⟨_, w, w', rfl, rfl, h⟩

theorem enterPrimitives_oblivious (s : Sentinels) : (enterPrimitives s).Oblivious :=
  (registerAll_oblivious _ _ _).bind fun _ => (registerExisting_oblivious _ _ _ _).bind fun _ =>
  registerExisting_oblivious _ _ _ _

theorem enterPseudoClasses_oblivious (s : Sentinels) : (enterPseudoClasses s).Oblivious :=
  (oblivious_add _).bind fun _ => (oblivious_attempt _).bind fun _ => (oblivious_add _).bind fun _ =>
  (oblivious_attempt _).bind fun _ => (oblivious_add _).bind fun _ => (oblivious_attempt _).bind fun _ =>
  (oblivious_add _).bind fun _ => (oblivious_attempt _).bind fun _ => (oblivious_change _).bind fun _ =>
  oblivious_pure _

theorem require_oblivious (p : Primitives) (tag : Tag) : (require p tag).Oblivious :=
  oblivious_ofWorld (oblivious_give _)

theorem enterPrimitiveClasses_oblivious (p : Primitives) (predef : SymbolId) (tags : List Tag) :
    (enterPrimitiveClasses p predef tags).Oblivious := by
  induction tags with
  | nil => exact oblivious_pure ()
  | cons tag rest ih =>
    refine (require_oblivious p tag).bind fun ty => oblivious_store.bind fun s => ?_
    split
    · exact Oblivious.bind (oblivious_ofWorld (oblivious_give _)) fun _ => ih
    · exact (oblivious_attempt _).bind fun _ => ih

theorem addLooseMethod_oblivious (owner : Name) (modifiers : Modifiers) (name : Name)
    (signature : Signature) (mc : SymbolId) :
    (addLooseMethod ClassPath.resolver owner modifiers name signature mc).Oblivious :=
  (oblivious_ask owner).bind fun _ => oblivious_add _

theorem standForInterfaces_oblivious (c : StandinContext) (flats : List Name) :
    (standForInterfaces ClassPath.resolver c flats).Oblivious := by
  induction flats with
  | nil => exact oblivious_pure ()
  | cons flat rest ih =>
    exact (oblivious_askType flat).bind fun _ => (oblivious_attempt _).bind fun _ => ih

theorem standForBox_oblivious (c : StandinContext) (ty : TypeId) :
    World.Oblivious (c.standForBox ClassPath.resolver ty) := by
  intro path w w' h
  simp only [StandinContext.standForBox, h.store]
  split
  · next boxed declaring _ _ =>
    split
    · set unbox := w'.store.nameOf declaring ++ unboxSuffix
      obtain ⟨id, v, v', hw, hw', hv⟩ :=
        ClassPath.askClass_oblivious boxed (w.see unbox) (w'.see unbox) (h.see unbox)
      simp only [hw, hw', hv.store]
      exact ⟨_, _, _, rfl, rfl, rfl, hv.path⟩
    · exact ⟨_, w, w', rfl, rfl, h⟩
  · exact ⟨_, w, w', rfl, rfl, h⟩

theorem standForBoxes_oblivious (c : StandinContext) (tags : List Tag) :
    (standForBoxes ClassPath.resolver c tags).Oblivious := by
  induction tags with
  | nil => exact oblivious_pure ()
  | cons tag rest ih =>
    exact (require_oblivious c.primitives tag).bind fun ty =>
      (oblivious_ofWorld (standForBox_oblivious c ty)).bind fun _ => ih

theorem enterMarker_oblivious (id : SymbolId) (supertype : TypeId) :
    (enterMarker id supertype).Oblivious :=
  (oblivious_change _).bind fun _ => (oblivious_change _).bind fun _ => oblivious_attempt _

theorem enterArrayMembers_oblivious (array mc : SymbolId) (int : TypeId) (platform : Tier) :
    (enterArrayMembers array mc int platform).Oblivious :=
  (oblivious_attempt _).bind fun _ => (oblivious_attempt _).bind fun _ => (oblivious_add _).bind fun _ =>
  (oblivious_attempt _).bind fun _ => (oblivious_add _).bind fun _ => (oblivious_attempt _).bind fun _ =>
  oblivious_pure _

theorem enterCore_oblivious (options : Options) : (enterCore ClassPath.resolver options).Oblivious := by
  unfold enterCore
  split
  · exact oblivious_pure none
  · exact (oblivious_total (ClassPath.askTier_oblivious Catalog.core)).bind fun _ => oblivious_pure _

end Build

open Build TableM

theorem Table.steps_oblivious (options : Options) (messages : Messages) :
    (Table.building options messages ClassPath.resolver).Oblivious := by
  unfold Table.building
  refine .bind (oblivious_total fun _ _ _ h => ⟨(), _, _, rfl, rfl, rfl, h.path⟩) fun _ => ?_
  refine .bind (enterSentinels_oblivious messages) fun s => ?_
  refine .bind (enterPrimitives_oblivious s) fun primitives => ?_
  refine .bind (enterPseudoClasses_oblivious s) fun pseudo => ?_
  refine .bind (enterPrimitiveClasses_oblivious _ _ _) fun _ => ?_
  refine .bind (oblivious_attempt _) fun _ => ?_
  refine .bind (oblivious_total (ClassPath.askTier_oblivious _)) fun platform => ?_
  refine .bind (oblivious_askType _) fun iterable => ?_
  refine .bind (require_oblivious _ _) fun void => ?_
  refine .bind (addLooseMethod_oblivious _ _ _ _ _) fun enumFinalize => ?_
  refine .bind (addLooseMethod_oblivious _ _ _ _ _) fun autoCloseableClose => ?_
  refine .bind (enterCore_oblivious options) fun core => ?_
  refine .bind (oblivious_total (ClassPath.askTier_oblivious _)) fun runtime => ?_
  refine .bind (standForInterfaces_oblivious _ _) fun _ => ?_
  refine .bind (standForBoxes_oblivious _ _) fun _ => ?_
  refine .bind (oblivious_ask _) fun proprietary => .bind oblivious_store fun _ => ?_
  refine .bind (oblivious_ask _) fun profile => .bind oblivious_store fun _ => ?_
  refine .bind (enterMarker_oblivious _ _) fun _ => ?_
  refine .bind (enterMarker_oblivious _ _) fun _ => ?_
  refine .bind (require_oblivious _ _) fun int => ?_
  refine .bind (enterArrayMembers_oblivious _ _ _ _) fun arrayMembers => ?_
  refine .bind (oblivious_ofWorld (enterBuiltins_oblivious _ _ _)) fun nullCheck => ?_
  exact oblivious_pure _

/-- Building a table leaves the class path as it is. -/
theorem Table.path_build (options : Options) (messages : Messages) (w : World) :
    (Table.build options messages ClassPath.resolver w).2.path = w.path := by
  rw [Table.build]
  exact World.Oblivious.path (Table.steps_oblivious options messages) w

theorem Table.building_oblivious (options : Options) (messages : Messages) (w w' : World)
    (h : w.store = w'.store) :
    ∃ r v v', (Table.building options messages ClassPath.resolver).run w = (r, v) ∧
      (Table.building options messages ClassPath.resolver).run w' = (r, v') ∧ v.store = v'.store := by
  obtain ⟨r, v, v', hw, hw', halike⟩ := Table.steps_oblivious options messages w w' ⟨h, rfl⟩
  exact ⟨r, v, v', hw, hw', halike.store⟩

/-- The store is cleared before anything else is done. -/
theorem Table.build_clear (options : Options) (messages : Messages) (r : Resolver) (w : World) :
    Table.build options messages r w = Table.build options messages r { w with store := .empty } := by
  rw [Table.build, Table.build, Table.building, run_bind, run_bind]
  rfl

/-- Building a table succeeds whatever the class path defines and whatever names were seen, and
gives one table and one store. No class of that store has been read: apart from the predefined class
and the markers, which never are, each still waits for its completion. -/
theorem Table.build_independent (options : Options) (messages : Messages) : ∃ (t : Table) (s : Store),
    (∀ w, ∃ w', Table.build options messages ClassPath.resolver w = (.ok t, w') ∧ w'.store = s) ∧
      ∀ flat id, s.class? flat = some id → id ≠ t.predefClass → flat ∉ Catalog.markers →
        (s.completer? id).isSome := by
  obtain ⟨t, w₀, hrun, hbuilt⟩ := Table.building_ensures options messages .empty
  refine ⟨t, w₀.store, fun w => ?_, fun flat id hc hpredef hmarker => ?_⟩
  · have hclear : ({ w with store := .empty } : World).store = World.empty.store := rfl
    obtain ⟨r, v, v', hw, hw', hv⟩ := Table.building_oblivious options messages _ _ hclear
    rw [hrun] at hw'
    obtain ⟨rfl, rfl⟩ := Prod.mk.inj hw'
    exact ⟨v, (Table.build_clear options messages _ w).trans hw, hv⟩
  · refine hbuilt.pending flat id hc ?_
    simp only [List.mem_cons, not_or]
    refine ⟨fun hflat => ?_, hmarker⟩
    subst hflat
    exact hpredef (Option.some.inj (hc.symm.trans hbuilt.predefined))

end SymbolTable
