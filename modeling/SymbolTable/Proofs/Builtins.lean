/-
The built-ins of a session.

What is registered as names are entered is new, so of the symbols that stood
before any name was resolved only the root package and the predefined class
are ever registered, both under the empty name. A completer is left on
registered classes only, so none is ever pending on these symbols, and a
class on which nothing is pending is left as it is.
-/
import SymbolTable.Proofs.OperatorTable
import SymbolTable.Proofs.Permanence

namespace SymbolTable

open Build Store

namespace Store

variable {s s' : Store} {l : List Change} {id : SymbolId} {r : Request}

/-! ## New names lead to new symbols -/

theorem Entering.lookup?_old (he : Entering s s') (hr : s.Registered) (hid : s.HasSymbol id)
    (h : s'.lookup? r = some id) : s.lookup? r = some id := by
  induction he with
  | refl => exact h
  | tail hpath hstep ih =>
    obtain ⟨q, -, -, hlookup, -⟩ := hstep.entry (hr.entering hpath)
    rw [hlookup] at h
    split at h
    · have hold := (Entering.keeps hpath).hasSymbol hid
      exact absurd (Option.some.inj h).symm hold.ne_next
    · exact ih h

/-- A symbol that is not registered stays so. -/
theorem Grows.lookup?_old (hg : s.Grows l s') (hr : s.Registered) (hid : s.HasSymbol id)
    (h : s'.lookup? r = some id) : s.lookup? r = some id := by
  induction hg with
  | refl => exact h
  | ask hg asked ih =>
    exact ih (asked.entering.lookup?_old (hg.registered hr) (hg.keeps.hasSymbol hid) h)
  | rework _ _ ih => exact ih h
  | method _ _ _ ih => exact ih h
  | field _ _ ih => exact ih h

theorem Spares.symbol?_of_done (h : s.Spares s') (hc : (s.classInfo? id).isSome)
    (hdone : s.completer? id = none) : s'.symbol? id = s.symbol? id := by
  obtain ⟨info, hinfo⟩ := Option.isSome_iff_exists.1 hc
  obtain ⟨sym, hs, hb⟩ := classInfo?_eq_some.1 hinfo
  have hnone : info.completer = none := by simpa [completer?, hinfo] using hdone
  rw [h id sym info hs hb hnone, hs]

end Store

/-! ## The ground -/

theorem lookup?_pseudoStore {display : String} {r : Request} {id : SymbolId}
    (h : (pseudoStore display).lookup? r = some id) :
    r = .cls "" ∧ id = pseudoIds.predef ∨ r = .package "" ∧ id = ⟨0⟩ := by
  cases r with
  | cls flat =>
    obtain ⟨rfl, rfl⟩ := ((grounded_primitiveIds display).registered flat id).1 h
    exact .inl ⟨rfl, rfl⟩
  | package full =>
    rw [Store.lookup?, package?_pseudoStore] at h
    split at h
    · next hfull => exact .inr ⟨by rw [hfull], (Option.some.inj h).symm⟩
    · cases h

theorem isSome_classInfo?_pseudoStore (display : String) :
    ∀ id ∈ [pseudoIds.array, pseudoIds.bound, pseudoIds.method, pseudoIds.predef],
      ((pseudoStore display).classInfo? id).isSome := by
  have hclass : ∀ (s : Store) (name : Name) (scope : SymbolId → Scope) (owner : SymbolId),
      ((s.withPseudo name scope owner).classInfo? s.nextSymbol).isSome := by
    intro s name scope owner
    rw [classInfo?, symbol?_withPseudo_self]
    rfl
  have hkeep : ∀ (s : Store) (name : Name) (scope : SymbolId → Scope) (owner id : SymbolId),
      (s.classInfo? id).isSome → ((s.withPseudo name scope owner).classInfo? id).isSome :=
    fun _ _ _ _ _ => (keeps_extend ..).isSome_classInfo?
  have hnext₀ := nextSymbol_primitiveStore display
  rw [pseudoStore]
  generalize primitiveStore display = s₀ at hnext₀ ⊢
  set s₁ := s₀.withPseudo WellKnown.array.text .members ⟨2⟩
  set s₂ := s₁.withPseudo WellKnown.bound.text .erroneous ⟨2⟩
  set s₃ := s₂.withPseudo WellKnown.method.text .erroneous ⟨2⟩
  have hnext₁ : s₁.nextSymbol = pseudoIds.bound := by rw [nextSymbol_withPseudo, hnext₀]; rfl
  have hnext₂ : s₂.nextSymbol = pseudoIds.method := by rw [nextSymbol_withPseudo, hnext₁]; rfl
  have hnext₃ : s₃.nextSymbol = pseudoIds.predef := by rw [nextSymbol_withPseudo, hnext₂]; rfl
  have harray : (s₁.classInfo? pseudoIds.array).isSome := hnext₀ ▸ hclass s₀ ..
  have hbound : (s₂.classInfo? pseudoIds.bound).isSome := hnext₁ ▸ hclass s₁ ..
  have hmethod : (s₃.classInfo? pseudoIds.method).isSome := hnext₂ ▸ hclass s₂ ..
  simp only [List.forall_mem_cons, List.not_mem_nil, false_imp_iff, implies_true, and_true]
  exact ⟨hkeep _ _ _ _ _ (hkeep _ _ _ _ _ (hkeep _ _ _ _ _ harray)),
    hkeep _ _ _ _ _ (hkeep _ _ _ _ _ hbound), hkeep _ _ _ _ _ hmethod, hnext₃ ▸ hclass s₃ ..⟩

theorem symbol?_sentinelStore (display : String) (unknown : Option SymbolId) (k : Sentinel) :
    ∃ sym, (sentinelStore display unknown).symbol? ⟨k.ctorIdx⟩ = some sym ∧ sym.sentinel = some k := by
  cases k <;> exact ⟨_, rfl, rfl⟩

theorem hasSymbol_sentinel (display : String) (k : Sentinel) :
    (pseudoStore display).HasSymbol ⟨k.ctorIdx⟩ := by
  obtain ⟨sym, hs, -⟩ := symbol?_sentinelStore display (some ⟨4⟩) k
  exact (grounded_primitiveIds display).sentinels.hasSymbol (hasSymbol_of_symbol? hs)

/-- The predefined class, the pseudo-classes, the error and unknown symbols, and the classes of the
primitive types. -/
def Table.builtins (t : Table) (s : Store) : List SymbolId :=
  [t.predefClass, t.arrayClass, t.boundClass, t.methodClass, t.errorSymbol, t.unknownSymbol] ++
    Tag.all.filterMap fun tag => (t.typeForTag? tag).bind s.declaring?

namespace Session

/-! ## What a session stands on -/

/-- The handles of the table lead to the ground that the store grew from. -/
structure Standing (display : String) (st : Session) : Prop where
  primitives : st.table.primitives = primitiveIds
  grounds : st.table.grounds = (List.range 5 ++ [15, 16, 17, 18]).map SymbolId.mk
  sound : st.Sound
  grown : ∃ l, (pseudoStore display).Grows l st.store
  predef : st.store.InPhase pseudoIds.predef .completed

namespace Standing

variable {display : String} {st : Session} {id : SymbolId} {r : Request}

theorem run (h : st.Standing display) (ops : List Op) : (st.run ops).Standing display := by
  have hrun := h.sound.extends_run ops
  obtain ⟨l₀, hgrown₀⟩ := h.grown
  obtain ⟨l, hgrown⟩ := h.sound.run_grows ops
  refine ⟨?_, ?_, hrun.sound, ⟨_, hgrown₀.trans hgrown⟩,
    hrun.advances.spares.inPhase h.predef (by simp)⟩
  · rw [hrun.table]
    exact h.primitives
  · rw [hrun.table]
    exact h.grounds

theorem sentinel (h : st.Standing display) (k : Sentinel) : st.table.sentinel k = ⟨k.ctorIdx⟩ := by
  have hk := congrArg (·[k.ctorIdx]?) h.grounds
  cases k <;> exact Option.some.inj hk

theorem predefClass (h : st.Standing display) : st.table.predefClass = pseudoIds.predef :=
  Option.some.inj (congrArg List.getLast? h.grounds)

/-- Of the ground, the predefined class and the root package alone are ever registered. -/
theorem lookup? (h : st.Standing display) (hid : (pseudoStore display).HasSymbol id)
    (hr : st.store.lookup? r = some id) :
    r = .cls "" ∧ id = pseudoIds.predef ∨ r = .package "" ∧ id = ⟨0⟩ := by
  obtain ⟨l, hgrown⟩ := h.grown
  exact lookup?_pseudoStore
    (hgrown.lookup?_old (grounded_primitiveIds display).sound.registered hid hr)

/-- Nothing is ever pending on it. -/
theorem completer? (h : st.Standing display) (hid : (pseudoStore display).HasSymbol id) :
    st.store.completer? id = none := by
  rw [Option.eq_none_iff_forall_ne_some]
  intro c hc
  obtain ⟨flat, hflat, -⟩ := h.sound.store.phased.pending hc not_false
  -- the class is registered, so it is the predefined one, and that is completed
  rcases h.lookup? (r := .cls flat) hid hflat with ⟨-, rfl⟩ | ⟨hr, -⟩
  · have hlazy := h.predef.completer?.1 (by simp [hc])
    cases hlazy
  · cases hr

/-- A primitive type is declared by a class of the ground. -/
theorem primitiveClass (h : st.Standing display) {tag : Tag} {ty : TypeId}
    (hty : st.table.typeForTag? tag = some ty) : ∃ d, st.store.declaring? ty = some d ∧
      ((pseudoStore display).classInfo? d).isSome := by
  obtain ⟨l, hgrown⟩ := h.grown
  have hprim := (grounded_primitiveIds display).primitives
  rw [← h.primitives] at hprim
  obtain ⟨-, d, -, -, hd, hc⟩ := hprim tag ty hty
  exact ⟨d, hgrown.keeps.declaring hd, hc⟩

/-- The built-ins are classes of the ground. -/
theorem builtin (h : st.Standing display) :
    ∀ id ∈ st.table.builtins st.store, ((pseudoStore display).classInfo? id).isSome := by
  have hsentinels := (grounded_primitiveIds display).sentinels
  have hpseudo := isSome_classInfo?_pseudoStore display
  intro id hid
  rcases List.mem_append.1 hid with hid | hid
  · have harray : st.table.arrayClass = pseudoIds.array :=
      Option.some.inj (congrArg (·[5]?) h.grounds)
    have hbound : st.table.boundClass = pseudoIds.bound :=
      Option.some.inj (congrArg (·[6]?) h.grounds)
    have hmethod : st.table.methodClass = pseudoIds.method :=
      Option.some.inj (congrArg (·[7]?) h.grounds)
    have herror : st.table.errorSymbol = ⟨3⟩ := h.sentinel .error
    have hunknown : st.table.unknownSymbol = ⟨4⟩ := h.sentinel .unknown
    rw [h.predefClass, harray, hbound, hmethod, herror, hunknown] at hid
    simp only [List.mem_cons, List.not_mem_nil, or_false] at hid
    rcases hid with rfl | rfl | rfl | rfl | rfl | rfl
    · exact hpseudo _ (by simp)
    · exact hpseudo _ (by simp)
    · exact hpseudo _ (by simp)
    · exact hpseudo _ (by simp)
    · exact hsentinels.isSome_classInfo? rfl
    · exact hsentinels.isSome_classInfo? rfl
  · obtain ⟨tag, -, htag⟩ := List.mem_filterMap.1 hid
    obtain ⟨ty, hty, hd⟩ := Option.bind_eq_some_iff.1 htag
    obtain ⟨d, hd', hc⟩ := h.primitiveClass hty
    obtain rfl := Option.some.inj (hd'.symm.trans hd)
    exact hc

theorem hasSymbol_builtin (h : st.Standing display) (hid : id ∈ st.table.builtins st.store) :
    (pseudoStore display).HasSymbol id :=
  hasSymbol_of_isSome_classInfo? (h.builtin id hid)

theorem builtins_run (h : st.Standing display) (ops : List Op) :
    (st.run ops).table.builtins (st.run ops).store = st.table.builtins st.store := by
  have hrun := h.sound.extends_run ops
  rw [hrun.table]
  refine congrArg (_ ++ ·) (List.filterMap_congr fun tag _ => ?_)
  cases hty : st.table.typeForTag? tag with
  | none => exact congrArg (Option.bind · _) hty
  | some ty =>
    obtain ⟨d, hd, -⟩ := h.primitiveClass hty
    have hkept := (hrun.advances.keeps.declaring hd).trans hd.symm
    exact (congrArg (Option.bind · _) hty).trans hkept

/-- The built-ins are left as they are. -/
theorem symbol?_run (h : st.Standing display) (hid : id ∈ st.table.builtins st.store)
    (ops : List Op) : ∃ sym, st.store.symbol? id = some sym ∧ (st.run ops).store.symbol? id = some sym := by
  have hground := h.hasSymbol_builtin hid
  obtain ⟨l, hgrown⟩ := h.grown
  obtain ⟨sym, hs⟩ := (hgrown.keeps.hasSymbol hground).symbol?
  have hc := hgrown.keeps.isSome_classInfo? (h.builtin id hid)
  have hsame := (h.sound.extends_run ops).advances.spares.symbol?_of_done hc (h.completer? hground)
  exact ⟨sym, hs, hsame.trans hs⟩

theorem tagged (h : st.Standing display) (k : Sentinel) :
    (st.store.symbol? (st.table.sentinel k)).bind (·.sentinel) = some k := by
  obtain ⟨l, hgrown⟩ := h.grown
  obtain ⟨sym, hs, htag⟩ := symbol?_sentinelStore display (some ⟨4⟩) k
  obtain ⟨sym', hs', ho⟩ :=
    ((grounded_primitiveIds display).sentinels.trans hgrown.keeps).symbol? hs
  rw [h.sentinel, hs', Option.bind_some, (Symbol.sameAs_of_outline ho).sentinel, htag]

theorem unregistered (h : st.Standing display) {k : Sentinel} (hk : k ≠ .root) (r : Request) :
    st.store.lookup? r ≠ some (st.table.sentinel k) := by
  rw [h.sentinel]
  intro hr
  rcases h.lookup? (hasSymbol_sentinel display k) hr with ⟨-, hid⟩ | ⟨-, hid⟩
  · cases k <;> cases hid
  · cases k <;> cases hid
    exact hk rfl

theorem rootPackage (h : st.Standing display) :
    st.store.package? "" = some st.table.rootPackage := by
  obtain ⟨l, hgrown⟩ := h.grown
  have hroot : st.table.rootPackage = ⟨0⟩ := h.sentinel .root
  rw [hroot]
  exact hgrown.keeps.package (by rw [package?_pseudoStore, if_pos rfl])

theorem predefined (h : st.Standing display) : st.store.class? "" = some st.table.predefClass := by
  obtain ⟨l, hgrown⟩ := h.grown
  rw [h.predefClass]
  exact hgrown.keeps.cls (((grounded_primitiveIds display).registered "" _).2 ⟨rfl, rfl⟩)

end Standing

/-! ## The built-ins -/

/-- The built-ins of `st` are as they were in `st₀`, where the table was built. -/
structure Undisturbed (st₀ st : Session) : Prop where
  same : st.table.builtins st.store = st₀.table.builtins st₀.store
  symbols : ∀ id ∈ st₀.table.builtins st₀.store,
    ∃ sym, st₀.store.symbol? id = some sym ∧ st.store.symbol? id = some sym
  operators : ∀ name, st.table.operators st.store name = st₀.table.operators st₀.store name
  lookupOperator : ∀ name operands, st.table.lookupOperator? st.store name operands =
    st₀.table.lookupOperator? st₀.store name operands
  apart : Function.Injective st.table.sentinel
  tagged : ∀ k, (st.store.symbol? (st.table.sentinel k)).bind (·.sentinel) = some k
  /-- No sentinel is registered as a class or package, save the root package. -/
  unregistered : ∀ k, k ≠ .root → ∀ r, st.store.lookup? r ≠ some (st.table.sentinel k)
  rootPackage : st.store.package? "" = some st.table.rootPackage
  predefClass : st.store.class? "" = some st.table.predefClass
  /-- Completing any of them succeeds and does nothing. -/
  completed : ∀ id ∈ st.table.builtins st.store ++ Sentinel.all.map st.table.sentinel,
    ∀ r, st.world.complete r id = (.ok (), st.world)

/-- Whatever is asked for, defined, completed or put behind a class later on, the built-ins stay as
they were built. -/
theorem builtins_undisturbed (options : Options) (messages : Messages) (w : World) :
    ∃ t w', Table.build options messages ClassPath.resolver w = (.ok t, w') ∧
      ∀ ops, (Session.mk t w').Undisturbed ((Session.mk t w').run ops) := by
  obtain ⟨t, w', hbuild, hfurnished⟩ := Table.building_furnished options messages w
  refine ⟨t, w', hbuild, fun ops => ?_⟩
  have hbuilt := hfurnished.built
  obtain ⟨l, hgrown, -⟩ := hfurnished.grown
  have hstart : (Session.mk t w').Standing (messages unnamedPackageKey) :=
    ⟨hfurnished.primitives, hfurnished.grounds, ⟨hfurnished.sound, hfurnished.held⟩, ⟨l, hgrown⟩,
      hfurnished.predefClass ▸ hbuilt.predefCompleted⟩
  have hrun := hstart.run ops
  have hsame := hstart.builtins_run ops
  have hoperators := (hstart.sound.extends_run ops).operators hstart.sound hbuilt.predefCompleted
  constructor
  · exact hsame
  · exact fun id hid => hstart.symbol?_run hid ops
  · exact hoperators
  · intro name operands
    have hfind : ∀ (t : Table) (s : Store), t.lookupOperator? s name operands =
        (t.operators s name).find? (·.accepts operands) := fun _ _ => rfl
    rw [hfind, hfind, hoperators]
  · intro k k' hk
    rw [hrun.sentinel, hrun.sentinel] at hk
    cases k <;> cases k' <;> first | rfl | cases hk
  · exact hrun.tagged
  · exact fun k hk r => hrun.unregistered hk r
  · exact hrun.rootPackage
  · exact hrun.predefined
  · intro id hid r
    refine World.complete_of_done (hrun.completer? ?_) r
    rcases List.mem_append.1 hid with hid | hid
    · exact hrun.hasSymbol_builtin hid
    · obtain ⟨k, -, rfl⟩ := List.mem_map.1 hid
      exact hrun.sentinel k ▸ hasSymbol_sentinel _ k

end Session

end SymbolTable
