/-
Sessions: a table, and whatever is done with it afterwards.

A session starts where a table was built, and each operation takes it one
step further. `Sound` is what holds at the start and is kept by every step,
so it holds of every session that can be reached. Two results follow from
it. The first is about the life of a class: it is lazy until it is completed
itself, and from then on nothing changes it. The second is referential
integrity: no operation leaves an identity behind that leads nowhere.
-/
import SymbolTable.ClassPath.Platform
import SymbolTable.Proofs.Construction

namespace SymbolTable

theorem World.store_defineAll (w : World) (classes : List (Name × ClassDef)) :
    (w.defineAll classes).store = w.store := by
  induction classes generalizing w with
  | nil => rfl
  | cons c rest ih => exact ih (w.define c.1 c.2)

structure Session where
  table : Table
  world : World

namespace Session

inductive Op where
  | define (flat : Name) (d : ClassDef)
  | undefine (flat : Name)
  | defineCore
  | resolveClass (flat : Name)
  | resolvePackage (full : Name)
  | complete (id : SymbolId)
  | standForInterface (ty : TypeId)
  | standForBox (ty : TypeId)
  | loadCore

def store (st : Session) : Store := st.world.store

/-- What an operation makes of a session. One that fails leaves what it did before it failed. -/
def step (st : Session) : Op → Session
  | .define flat d => { st with world := st.world.define flat d }
  | .undefine flat => { st with world := { st.world with path := st.world.path.erase flat } }
  | .defineCore => { st with world := st.world.defineCore }
  | .resolveClass flat =>
    { st with world := (ClassPath.resolver.askClass flat (st.world.see flat)).2 }
  | .resolvePackage full =>
    { st with world := (ClassPath.resolver.askPackage full (st.world.see full)).2 }
  | .complete id => { st with world := (st.world.complete ClassPath.resolver id).2 }
  | .standForInterface ty =>
    match st.table.standForInterface ty st.store with
    | .ok (_, store) => { st with world := { st.world with store } }
    | .error _ => st
  | .standForBox ty => { st with world := (st.table.standForBox ClassPath.resolver ty st.world).2 }
  | .loadCore =>
    ⟨(st.table.loadCore ClassPath.resolver st.world).1, (st.table.loadCore ClassPath.resolver st.world).2⟩

def run (st : Session) (ops : List Op) : Session := ops.foldl step st

/-- What comes of building a table and working with it. -/
inductive Reachable : Session → Prop
  | built {options : Options} {messages : Messages} {w w' : World} {t : Table}
      (h : Table.build options messages ClassPath.resolver w = (.ok t, w')) : Reachable ⟨t, w'⟩
  | step {st : Session} (h : Reachable st) (op : Op) : Reachable (st.step op)

theorem Reachable.run {st : Session} (h : st.Reachable) (ops : List Op) : (st.run ops).Reachable := by
  induction ops generalizing st with
  | nil => exact h
  | cons op ops ih => exact ih (h.step op)

/-! ## What every step keeps -/

structure Sound (st : Session) : Prop where
  store : st.store.Sound st.table.rootPackage st.table.methodClass
  held : st.table.Held st.store

theorem Sound.methodClass {st : Session} (h : st.Sound) : st.store.HasSymbol st.table.methodClass :=
  h.held.symbols ("method_class", st.table.methodClass) (by simp [Table.symbols])

theorem Sound.object {st : Session} (h : st.Sound) : st.store.HasType st.table.standins.object :=
  h.store.linked.hasType (h.held.platform.typeOf (e := ⟨"object", "java.lang.Object"⟩) rfl)

theorem step_loadCore {st : Session} {core : Tier} {w : World}
    (h : ClassPath.resolver.askTier Catalog.core st.world = (core, w)) :
    st.step .loadCore = ⟨{ st.table with core := some core }, w⟩ := by
  rw [step, Table.loadCore, h]

theorem Sound.loadCore {st : Session} (h : st.Sound) : ∃ core w,
    st.step .loadCore = ⟨{ st.table with core := some core }, w⟩ ∧
      st.store.Asked ((Catalog.flatNames Catalog.core).map .cls) w.store ∧
      core.Resolves w.store Catalog.core := by
  obtain ⟨hasked, hcore⟩ := ClassPath.askTier_asked Catalog.core h.store.registered
  cases hask : ClassPath.resolver.askTier Catalog.core st.world with
  | mk core w =>
    rw [hask] at hasked hcore
    exact ⟨core, w, step_loadCore hask, hasked, hcore⟩

/-- What an operation does to the store: unless it is a completion, it enters names, and then it
may put a stand-in behind a class. -/
theorem Sound.step_cases {st : Session} (h : st.Sound) (op : Op) :
    (∃ id, op = .complete id) ∨ ∃ s, st.store.Entering s ∧
      ((st.step op).store = s ∨ ∃ (id : SymbolId) (f : Completer), f.IsStandin ∧
        f.Linked s st.table.methodClass ∧ (st.step op).store = s.fallBack id f) := by
  cases op with
  | define flat d => exact .inr ⟨_, .refl, .inl rfl⟩
  | undefine flat => exact .inr ⟨_, .refl, .inl rfl⟩
  | defineCore => exact .inr ⟨_, .refl, .inl (World.store_defineAll _ _)⟩
  | resolveClass flat =>
    have hreg : (st.world.see flat).store.Registered := h.store.registered
    exact .inr ⟨_, (ClassPath.askClass_entered flat hreg).entering, .inl rfl⟩
  | resolvePackage full =>
    have hreg : (st.world.see full).store.Registered := h.store.registered
    exact .inr ⟨_, (ClassPath.askPackage_entered full hreg).entering, .inl rfl⟩
  | complete id => exact .inl ⟨id, rfl⟩
  | standForInterface ty =>
    refine .inr ⟨st.store, .refl, ?_⟩
    rcases st.table.standins.standForInterface_cases ty st.store with ⟨e, hr⟩ | ⟨id, hr⟩
    · simp [Session.step, Table.standForInterface, hr]
    · refine .inr ⟨id, _, .emptyInterface _, h.object, ?_⟩
      rw [Session.store, Session.step, Table.standForInterface, hr]
  | standForBox ty =>
    rcases StandinContext.standForBox_cases h.store h.object rfl ty with
      ⟨e, hr⟩ | ⟨id, w, boxed, plan, -, hasked, hl, hr⟩
    · refine .inr ⟨st.store, .refl, .inl ?_⟩
      simp [Session.step, Table.standForBox, hr, Session.store]
    · refine .inr ⟨w.store, hasked.entering, .inr ⟨id, _, .box plan, hl, ?_⟩⟩
      simp [Session.step, Table.standForBox, hr, Session.store]
  | loadCore =>
    obtain ⟨core, w, hstep, hasked, -⟩ := h.loadCore
    exact .inr ⟨w.store, hasked.entering, .inl (by rw [hstep, Session.store])⟩

theorem Sound.advances {st : Session} (h : st.Sound) (op : Op) :
    st.store.Advances st.table.rootPackage st.table.methodClass (st.step op).store := by
  rcases h.step_cases op with ⟨id, rfl⟩ | ⟨s, he, hstep⟩
  · exact World.complete_advances h.store h.methodClass id
  · have ha := h.store.entering he
    rcases hstep with hs | ⟨id, f, hf, hl, hs⟩
    · exact hs ▸ ha
    · exact hs ▸ ha.trans (ha.sound.fallBack id hf hl)

theorem table_step (st : Session) {op : Op} (hop : op ≠ .loadCore) :
    (st.step op).table = st.table := by
  cases op with
  | standForInterface ty =>
    simp only [step]
    split <;> rfl
  | loadCore => exact absurd rfl hop
  | _ => rfl

theorem Sound.step {st : Session} (h : st.Sound) (op : Op) : (st.step op).Sound := by
  have ha := h.advances op
  have hheld := h.held.mono ha.keeps
  by_cases hop : op = .loadCore
  · subst hop
    obtain ⟨core, w, hstep, -, hcore⟩ := h.loadCore
    rw [hstep] at ha hheld ⊢
    exact ⟨ha.sound, { hheld with core := fun r hr => ha.sound.linked.hasType (hcore.types r hr) }⟩
  · constructor
    · rw [table_step st hop]
      exact ha.sound
    · rw [table_step st hop]
      exact hheld

theorem Reachable.sound {st : Session} (h : st.Reachable) : st.Sound := by
  induction h with
  | built hbuild =>
    have hfurnished := Table.build_furnished hbuild
    exact ⟨hfurnished.sound, hfurnished.held⟩
  | step _ op ih => exact ih.step op

/-! ## Runs -/

/-- A session goes on from another: its table differs in the core library at most, and its store
is what operations made of the other's. -/
structure Extends (st st' : Session) : Prop where
  table : st'.table = { st.table with core := st'.table.core }
  sound : st'.Sound
  advances : st.store.Advances st.table.rootPackage st.table.methodClass st'.store

theorem Sound.extends_step {st : Session} (h : st.Sound) (op : Op) : st.Extends (st.step op) := by
  refine ⟨?_, h.step op, h.advances op⟩
  by_cases hop : op = .loadCore
  · subst hop
    obtain ⟨core, w, hstep, -⟩ := h.loadCore
    rw [hstep]
  · rw [table_step st hop]

theorem Sound.extends_run {st : Session} (h : st.Sound) (ops : List Op) : st.Extends (st.run ops) := by
  induction ops generalizing st with
  | nil => exact ⟨rfl, h, h.store.refl⟩
  | cons op ops ih =>
    obtain ⟨htable, hsound, ha⟩ := h.extends_step op
    obtain ⟨htable', hsound', ha'⟩ := ih hsound
    have hrun : st.run (op :: ops) = (st.step op).run ops := rfl
    rw [htable] at htable' ha'
    exact ⟨hrun ▸ htable', hsound', ha.trans ha'⟩

/-! ## The life of a class -/

theorem Sound.step_inPhase {st : Session} (h : st.Sound) {id : SymbolId} {op : Op}
    (hop : op ≠ .complete id) {p : Phase} (hp : st.store.InPhase id p) :
    (st.step op).store.InPhase id p := by
  rcases h.step_cases op with ⟨x, rfl⟩ | ⟨s, he, hstep⟩
  · obtain ⟨sym, info, hs, hb, hp⟩ := hp
    have hne : id ≠ x := fun hx => hop (by rw [hx])
    exact ⟨sym, info, World.complete_symbol? h.store.registered h.store.phased hs hb hne, hb, hp⟩
  · have hp' := hp.entering h.store.registered he
    rcases hstep with hs | ⟨x, f, -, -, hs⟩
    · exact hs ▸ hp'
    · exact hs ▸ hp'.fallBack x f

theorem Sound.run_inPhase {st : Session} (h : st.Sound) {id : SymbolId} {ops : List Op}
    (hops : .complete id ∉ ops) {p : Phase} (hp : st.store.InPhase id p) :
    (st.run ops).store.InPhase id p := by
  induction ops generalizing st with
  | nil => exact hp
  | cons op ops ih =>
    rw [List.mem_cons, not_or] at hops
    exact ih (h.step op) hops.2 (h.step_inPhase (Ne.symm hops.1) hp)

/-- The life of a class: the phase it is in, and how it goes on. -/
structure Lives (st : Session) (flat : Name) (id : SymbolId) : Prop where
  phase : ∃! p, st.store.InPhase id p
  registered : ∀ ops, (st.run ops).store.class? flat = some id
  /-- As long as it is lazy, nothing but its own completion changes that. -/
  lazy : st.store.InPhase id .lazy → ∀ op, op ≠ .complete id → (st.step op).store.InPhase id .lazy
  completion : st.store.InPhase id .lazy → (st.step (.complete id)).store.InPhase id
    (.ofOutcome (st.world.complete ClassPath.resolver id).1)
  /-- From then on nothing changes it. -/
  settled : ¬st.store.InPhase id .lazy → ∀ ops,
    (st.run ops).store.symbol? id = st.store.symbol? id
  again : ¬st.store.InPhase id .lazy →
    st.world.complete ClassPath.resolver id = (.ok (), st.world)

/-- Every registered class lives that way in every session. -/
theorem Reachable.lives {st : Session} (h : st.Reachable) {flat : Name} {id : SymbolId}
    (hc : st.store.class? flat = some id) : st.Lives flat id := by
  have hsound := h.sound
  obtain ⟨p, hp⟩ := hsound.store.phased.phase hc not_false
  have hlazy : ¬st.store.InPhase id .lazy → p ≠ .lazy := by
    rintro hn rfl
    exact hn hp
  constructor
  · exact ⟨p, hp, fun q hq => hq.unique hp⟩
  · exact fun ops => (hsound.extends_run ops).advances.keeps.cls hc
  · exact fun hl op hop => hsound.step_inPhase hop hl
  · intro hl
    obtain ⟨c, hcompleter⟩ := Option.isSome_iff_exists.1 (hl.completer?.2 rfl)
    exact World.complete_inPhase hsound.store.registered hsound.store.phased hcompleter
  · exact fun hn ops => (hsound.extends_run ops).advances.spares.symbol? hp (hlazy hn)
  · intro hn
    refine World.complete_of_done (Option.not_isSome_iff_eq_none.1 fun hs => ?_) _
    exact hlazy hn (hp.completer?.1 hs)

/-- A class nested in one that no definition is known of, entered by its name alone. -/
theorem lives_nested : ∃ (st : Session) (id : SymbolId), st.Reachable ∧
    st.store.class? "p.Outer$Inner" = some id ∧ st.Lives "p.Outer$Inner" id := by
  obtain ⟨t, w, hbuild, -⟩ := Table.building_ensures .default Messages.english .empty
  have hbuilt : Reachable ⟨t, w⟩ := .built hbuild
  have hreg : (w.see "p.Outer$Inner").store.Registered := hbuilt.sound.store.registered
  have hfound := (ClassPath.askClass_entered "p.Outer$Inner" hreg).found
  have hstep := hbuilt.step (.resolveClass "p.Outer$Inner")
  exact ⟨_, _, hstep, hfound, hstep.lives hfound⟩

/-! ## Referential integrity -/

/-- Every identity that the store or the table holds leads to something that is there. -/
structure Intact (st : Session) : Prop where
  links : st.store.Linked st.table.rootPackage st.table.methodClass
  /-- Going from owner to owner ends at the root package. -/
  rooted : ∀ id, st.store.HasSymbol id →
    Relation.ReflTransGen st.store.OwnedBy id st.table.rootPackage
  classes : ∀ flat id, st.store.class? flat = some id → st.store.HasSymbol id
  packages : ∀ full id, st.store.package? full = some id → st.store.HasSymbol id
  primitives : ∀ tag ty, st.table.primitives.type? tag = some ty → st.store.HasType ty
  symbols : ∀ h ∈ st.table.symbols, st.store.HasSymbol h.2
  types : ∀ h ∈ st.table.types, st.store.HasType h.2
  tiers : ∀ c ∈ st.table.platform ++ st.table.core.getD [] ++ st.table.runtime,
    st.store.HasType c.ty

theorem Reachable.intact {st : Session} (h : st.Reachable) : st.Intact := by
  obtain ⟨hstore, hheld⟩ := h.sound
  constructor
  · exact hstore.linked
  · exact fun id hid => hstore.linked.ownedBy_root hid
  · exact fun _ _ hc => hstore.registered.hasSymbol hc
  · exact fun _ _ hc => hstore.registered.hasSymbol_package hc
  · exact fun _ _ hty => hheld.primitives.hasType hty
  · exact hheld.symbols
  · exact hheld.types
  · simp only [List.forall_mem_append]
    exact ⟨⟨fun c hc => hstore.linked.hasType (hheld.platform.types c hc), hheld.core⟩,
      hheld.runtime⟩

/-- Names are entered out of order, a symbol is completed whatever it is, and the core library is
loaded from a class path that lacks it. -/
theorem intact_run : ∃ (t : Table) (w : World),
    Table.build .default Messages.english ClassPath.resolver .empty = (.ok t, w) ∧
      ((Session.mk t w).run [.resolveClass "p.Outer$Inner", .resolvePackage "p.q.r",
        .complete ⟨40⟩, .standForBox ⟨12⟩, .loadCore]).Intact := by
  obtain ⟨t, w, hbuild, -⟩ := Table.building_ensures .default Messages.english .empty
  exact ⟨t, w, hbuild, ((Reachable.built hbuild).run _).intact⟩

end Session

end SymbolTable
