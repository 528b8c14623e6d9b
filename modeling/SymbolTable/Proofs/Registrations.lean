/-
Registering primitive types, call after call.

A registry of primitives shares its types with the store, where symbols are
bound to types and more is allocated all the time. Whatever the calls, and
whether they fail or not, a tag keeps the type it got and the type keeps the
symbol that declares it: no call takes anything away (`Advances`), and a type
is declared by the time it is registered (`Declared`).
-/
import Mathlib.Data.List.Induction
import SymbolTable.Proofs.Groundwork

namespace SymbolTable

open Store

/-! ## Binding -/

namespace Store

variable {s s' : Store} {ty : TypeId} {d : SymbolId}

theorem bindSymbol_error_iff {e : TableError} : s.bindSymbol ty d = .error e ↔
    ∃ x, s.declaring? ty = some x ∧ x ≠ d ∧ e = .symbolAlreadyBound ty x d := by
  unfold bindSymbol
  cases s.declaring? ty with
  | none => simp
  | some x =>
    by_cases hx : x = d
    · simp [hx]
    · simp only [hx, if_false]
      constructor
      · intro h
        exact ⟨x, rfl, hx, (Except.error.inj h).symm⟩
      · rintro ⟨y, hy, -, rfl⟩
        rw [Option.some.inj hy]

theorem bindSymbol_ok (h : s.bindSymbol ty d = .ok s') :
    s.declaring? ty = none ∧ s' = s.declare ty d ∨ s.declaring? ty = some d ∧ s' = s := by
  cases hx : s.declaring? ty with
  | none =>
    rw [bindSymbol_eq hx] at h
    exact .inl ⟨rfl, (Except.ok.inj h).symm⟩
  | some x =>
    by_cases hd : x = d
    · rw [hd] at hx
      rw [bindSymbol_same hx] at h
      exact .inr ⟨by rw [hd], (Except.ok.inj h).symm⟩
    · rw [bindSymbol_error_iff.2 ⟨x, hx, hd, rfl⟩] at h
      cases h

theorem keeps_bindSymbol (h : s.bindSymbol ty d = .ok s') : s.Keeps s' := by
  rcases bindSymbol_ok h with ⟨hnone, rfl⟩ | ⟨-, rfl⟩
  · exact keeps_declare hnone d
  · exact .refl _

theorem declaring?_bindSymbol (h : s.bindSymbol ty d = .ok s') (hty : s.HasType ty) :
    s'.declaring? ty = some d := by
  rcases bindSymbol_ok h with ⟨-, rfl⟩ | ⟨hd, rfl⟩
  · obtain ⟨t, ht⟩ := hty.type?
    simp [declaring?, type?_declare, ht]
  · exact hd

end Store

theorem Primitives.box?_withBox (p : Primitives) (tag tag' : Tag) (box : Option String) :
    (p.withBox tag box).box? tag' =
      if tag' = tag ∧ box.isSome then box.map boxName else p.box? tag' := by
  cases box with
  | none => simp [withBox]
  | some simple => simp [withBox, box?, OrderedMap.get?_insert]

/-! ## Calls -/

/-- A registry of primitives, and the world its types are in. -/
structure Registrar where
  primitives : Primitives
  world : World

namespace Registrar

/-- The calls that registries and stores get. An allocation in a store adds a type, a symbol, or one
after the other. -/
inductive Call where
  | register (root : SymbolId) (tag : Tag) (name : Name) (box : Option String)
  | registerExisting (tag : Tag) (ty : TypeId) (symbol : SymbolId)
  | bind (ty : TypeId) (symbol : SymbolId)
  | addType (t : Ty)
  | addSymbol (symbol : Symbol)

/-- Nothing registered, in some world. -/
def fresh (w : World) : Registrar := ⟨.empty, w⟩

def store (r : Registrar) : Store := r.world.store

def type? (r : Registrar) (tag : Tag) : Option TypeId := r.primitives.type? tag

def box? (r : Registrar) (tag : Tag) : Option Name := r.primitives.box? tag

def withStore (r : Registrar) (s : Store) : Registrar := { r with world := { r.world with store := s } }

/-- One call: how it ends, and what it leaves. -/
def step (r : Registrar) : Call → Except TableError Unit × Registrar
  | .register root tag name box =>
    match r.primitives.register root tag name box r.world with
    | (.ok (_, primitives), world) => (.ok (), ⟨primitives, world⟩)
    | (.error e, world) => (.error e, { r with world })
  | .registerExisting tag ty symbol =>
    match r.primitives.registerExisting tag ty symbol r.store with
    | .ok (primitives, store) => (.ok (), { r.withStore store with primitives })
    | .error e => (.error e, r)
  | .bind ty symbol =>
    match r.store.bindSymbol ty symbol with
    | .ok store => (.ok (), r.withStore store)
    | .error e => (.error e, r)
  | .addType t => (.ok (), r.withStore (r.store.addType t).2)
  | .addSymbol symbol => (.ok (), r.withStore (r.store.addSymbol symbol).2)

/-- What calls leave, made one after the other; those that fail do not end the run. -/
def run (r : Registrar) (calls : List Call) : Registrar := calls.foldl (fun r c => (r.step c).2) r

/-- A type that is to be bound must be one of the store. -/
def Admits (r : Registrar) : Call → Prop
  | .registerExisting tag ty _ => r.type? tag = none → r.store.HasType ty
  | .bind ty _ => r.store.HasType ty
  | _ => True

/-- Every call is admitted when it is made. -/
def Feasible (r : Registrar) : List Call → Prop
  | [] => True
  | c :: rest => r.Admits c ∧ (r.step c).2.Feasible rest

instance (r : Registrar) : DecidablePred r.Admits
  | .registerExisting tag ty _ => inferInstanceAs (Decidable (r.type? tag = none → r.store.HasType ty))
  | .bind ty _ => inferInstanceAs (Decidable (r.store.HasType ty))
  | .register .. | .addType _ | .addSymbol _ => .isTrue trivial

instance decidableFeasible : (r : Registrar) → (calls : List Call) → Decidable (r.Feasible calls)
  | _, [] => .isTrue trivial
  | r, c :: rest =>
    have := decidableFeasible (r.step c).2 rest
    inferInstanceAs (Decidable (r.Admits c ∧ (r.step c).2.Feasible rest))

/-- Among the calls is one that registered a new type for a tag, with this wrapper. -/
def Made (w : World) (calls : List Call) (tag : Tag) (box : Option String) : Prop :=
  ∃ earlier root name later, calls = earlier ++ .register root tag name box :: later ∧
    (((fresh w).run earlier).step (.register root tag name box)).1 = .ok ()

variable {r r' r'' : Registrar} {w : World} {calls : List Call} {tag : Tag}

theorem run_append (r : Registrar) (calls more : List Call) :
    r.run (calls ++ more) = (r.run calls).run more := List.foldl_append ..

theorem Made.append {box : Option String} (h : Made w calls tag box) (more : List Call) :
    Made w (calls ++ more) tag box := by
  obtain ⟨earlier, root, name, later, rfl, hok⟩ := h
  exact ⟨earlier, root, name, later ++ more, by simp, hok⟩

/-! ## How calls end -/

theorem step_register_of_some {ty : TypeId} (h : r.type? tag = some ty) (root : SymbolId)
    (name : Name) (box : Option String) :
    r.step (.register root tag name box) = (.error (.duplicatePrimitive tag), r) := by
  rw [type?] at h
  simp only [step, Primitives.register, h]

theorem step_register_of_none (h : r.type? tag = none) (root : SymbolId) (name : Name)
    (box : Option String) : ∃ names, r.step (.register root tag name box) =
      (.ok (), ⟨(r.primitives.withType tag r.store.nextType).withBox tag box,
        { r.world with names, store := r.store.withPrimitive root tag name }⟩) := by
  obtain ⟨names, hreg⟩ := Primitives.register_eq h root name box r.world
  exact ⟨names, by simp only [step, hreg, store]⟩

theorem step_registerExisting_of_some {ty : TypeId} (h : r.type? tag = some ty) (ty' : TypeId)
    (symbol : SymbolId) :
    r.step (.registerExisting tag ty' symbol) = (.error (.duplicatePrimitive tag), r) := by
  rw [type?] at h
  simp only [step, Primitives.registerExisting, h]

/-- A tag that is new gets its type as the symbol is bound to it. -/
theorem step_registerExisting_of_none (h : r.type? tag = none) (ty : TypeId) (symbol : SymbolId) :
    r.step (.registerExisting tag ty symbol) = match r.store.bindSymbol ty symbol with
      | .ok s => (.ok (), { r.withStore s with primitives := r.primitives.withType tag ty })
      | .error e => (.error e, r) := by
  rw [type?] at h
  simp only [step, Primitives.registerExisting, h]
  cases r.store.bindSymbol ty symbol with
  | ok s => rfl
  | error e => rfl

theorem step_register_error_iff {root : SymbolId} {name : Name} {box : Option String}
    {e : TableError} : (r.step (.register root tag name box)).1 = .error e ↔
      (r.type? tag).isSome ∧ e = .duplicatePrimitive tag := by
  cases hty : r.type? tag with
  | none =>
    obtain ⟨names, hstep⟩ := step_register_of_none hty root name box
    simp [hstep]
  | some ty => simp [step_register_of_some hty, eq_comm]

theorem step_registerExisting_error_iff {ty : TypeId} {symbol : SymbolId} {e : TableError} :
    (r.step (.registerExisting tag ty symbol)).1 = .error e ↔
      (r.type? tag).isSome ∧ e = .duplicatePrimitive tag ∨
      r.type? tag = none ∧ ∃ d, r.store.declaring? ty = some d ∧ d ≠ symbol ∧
        e = .symbolAlreadyBound ty d symbol := by
  cases hty : r.type? tag with
  | none =>
    rw [step_registerExisting_of_none hty, ← bindSymbol_error_iff]
    cases r.store.bindSymbol ty symbol with
    | ok s => simp
    | error e' => simp
  | some ty' => simp [step_registerExisting_of_some hty, eq_comm]

theorem step_bind_error_iff {ty : TypeId} {symbol : SymbolId} {e : TableError} :
    (r.step (.bind ty symbol)).1 = .error e ↔ ∃ d, r.store.declaring? ty = some d ∧ d ≠ symbol ∧
      e = .symbolAlreadyBound ty d symbol := by
  rw [← bindSymbol_error_iff, step]
  cases r.store.bindSymbol ty symbol with
  | ok s => simp
  | error e' => simp

/-- What a call that succeeds leaves. -/
inductive Succeeds (r : Registrar) : Call → Registrar → Prop
  | register {tag : Tag} (new : r.type? tag = none) (root : SymbolId) (name : Name)
      (box : Option String) (names : NameTable) :
      r.Succeeds (.register root tag name box)
        ⟨(r.primitives.withType tag r.store.nextType).withBox tag box,
          { r.world with names, store := r.store.withPrimitive root tag name }⟩
  | registerExisting {tag : Tag} {ty : TypeId} {symbol : SymbolId} {s : Store}
      (new : r.type? tag = none) (bound : r.store.bindSymbol ty symbol = .ok s) :
      r.Succeeds (.registerExisting tag ty symbol)
        { r.withStore s with primitives := r.primitives.withType tag ty }
  | bind {ty : TypeId} {symbol : SymbolId} {s : Store} (bound : r.store.bindSymbol ty symbol = .ok s) :
      r.Succeeds (.bind ty symbol) (r.withStore s)
  | addType (t : Ty) : r.Succeeds (.addType t) (r.withStore (r.store.addType t).2)
  | addSymbol (symbol : Symbol) :
      r.Succeeds (.addSymbol symbol) (r.withStore (r.store.addSymbol symbol).2)

/-- A call fails and changes nothing, or it succeeds. -/
theorem step_cases (r : Registrar) (c : Call) :
    (∃ e, r.step c = (.error e, r)) ∨ ∃ r', r.step c = (.ok (), r') ∧ r.Succeeds c r' := by
  cases c with
  | register root tag name box =>
    cases hty : r.type? tag with
    | none =>
      obtain ⟨names, hstep⟩ := step_register_of_none hty root name box
      exact .inr ⟨_, hstep, .register hty root name box names⟩
    | some ty => exact .inl ⟨_, step_register_of_some hty root name box⟩
  | registerExisting tag ty symbol =>
    cases hty : r.type? tag with
    | none =>
      rw [step_registerExisting_of_none hty]
      cases hb : r.store.bindSymbol ty symbol with
      | ok s => exact .inr ⟨_, rfl, .registerExisting hty hb⟩
      | error e => exact .inl ⟨e, rfl⟩
    | some ty' => exact .inl ⟨_, step_registerExisting_of_some hty ty symbol⟩
  | bind ty symbol =>
    rw [step]
    cases hb : r.store.bindSymbol ty symbol with
    | ok s => exact .inr ⟨_, rfl, .bind hb⟩
    | error e => exact .inl ⟨e, rfl⟩
  | addType t => exact .inr ⟨_, rfl, .addType t⟩
  | addSymbol symbol => exact .inr ⟨_, rfl, .addSymbol symbol⟩

theorem step_of_error {c : Call} {e : TableError} (h : (r.step c).1 = .error e) : (r.step c).2 = r := by
  rcases r.step_cases c with ⟨e', hstep⟩ | ⟨r', hstep, -⟩
  · rw [hstep]
  · rw [hstep] at h
    cases h

/-! ## What calls keep -/

/-- Nothing is taken away: the store keeps what it has, a tag its type, and a tag that has a type the
wrapper it has or has not. -/
structure Advances (r r' : Registrar) : Prop where
  keeps : r.store.Keeps r'.store
  type? : ∀ {tag ty}, r.type? tag = some ty → r'.type? tag = some ty
  box? : ∀ {tag}, (r.type? tag).isSome → r'.box? tag = r.box? tag

theorem Advances.refl (r : Registrar) : r.Advances r := ⟨.refl _, id, fun _ => rfl⟩

theorem Advances.trans (h : r.Advances r') (h' : r'.Advances r'') : r.Advances r'' where
  keeps := h.keeps.trans h'.keeps
  type? hty := h'.type? (h.type? hty)
  box? {tag} hty := by
    obtain ⟨ty, hty'⟩ := Option.isSome_iff_exists.1 hty
    rw [h'.box? (by simp [h.type? hty']), h.box? hty]

theorem advances_withStore {s : Store} (h : r.store.Keeps s) : r.Advances (r.withStore s) :=
  ⟨h, id, fun _ => rfl⟩

theorem type?_withType_of_some {p : Primitives} {tag' : Tag} {ty' : TypeId} (h : p.type? tag = none)
    (hty : p.type? tag' = some ty') (ty : TypeId) : (p.withType tag ty).type? tag' = some ty' := by
  have hne : tag' ≠ tag := by
    intro heq
    simp [heq, h] at hty
  rw [Primitives.type?_withType, if_neg hne, hty]

theorem Succeeds.advances {c : Call} (h : r.Succeeds c r') : r.Advances r' := by
  cases h with
  | @register tag new root name box names =>
    refine ⟨r.store.keeps_withPrimitive root tag name, fun {tag' ty'} hty => ?_, fun {tag'} hty => ?_⟩
    · exact (Primitives.type?_withBox ..).trans (type?_withType_of_some new hty _)
    · have hne : tag' ≠ tag := by
        intro heq
        simp [heq, new] at hty
      exact (Primitives.box?_withBox ..).trans (if_neg fun h => hne h.1)
  | registerExisting new bound =>
    exact ⟨keeps_bindSymbol bound, fun hty => type?_withType_of_some new hty _, fun _ => rfl⟩
  | bind bound => exact advances_withStore (keeps_bindSymbol bound)
  | addType t => exact advances_withStore (r.store.keeps_addType t)
  | addSymbol symbol => exact advances_withStore (r.store.keeps_addSymbol symbol)

theorem step_advances (r : Registrar) (c : Call) : r.Advances (r.step c).2 := by
  rcases r.step_cases c with ⟨e, hstep⟩ | ⟨r', hstep, hok⟩
  · rw [hstep]
    exact .refl r
  · rw [hstep]
    exact hok.advances

theorem run_advances (r : Registrar) (calls : List Call) : r.Advances (r.run calls) := by
  induction calls generalizing r with
  | nil => exact .refl r
  | cons c rest ih => exact (r.step_advances c).trans (ih (r.step c).2)

/-! ## Declaring symbols -/

/-- Every registered type is declared by some symbol. -/
def Declared (r : Registrar) : Prop :=
  ∀ tag ty, r.type? tag = some ty → ∃ d, r.store.declaring? ty = some d

/-- A type that is declared can be registered. -/
theorem Declared.withType (h : r.Declared) (ha : r.Advances r') {ty : TypeId} {d : SymbolId}
    (htype : ∀ tag', r'.type? tag' = if tag' = tag then some ty else r.type? tag')
    (hd : r'.store.declaring? ty = some d) : r'.Declared := by
  intro tag' ty' hty
  rw [htype] at hty
  split at hty
  · obtain rfl := Option.some.inj hty
    exact ⟨d, hd⟩
  · obtain ⟨d', hd'⟩ := h tag' ty' hty
    exact ⟨d', ha.keeps.declaring hd'⟩

theorem Declared.withStore (h : r.Declared) {s : Store} (ha : r.Advances (r.withStore s)) :
    (r.withStore s).Declared := by
  intro tag ty hty
  obtain ⟨d, hd⟩ := h tag ty hty
  exact ⟨d, ha.keeps.declaring hd⟩

theorem Declared.step (h : r.Declared) {c : Call} (hc : r.Admits c) : (r.step c).2.Declared := by
  rcases r.step_cases c with ⟨e, hstep⟩ | ⟨r', hstep, hok⟩
  · rwa [hstep]
  · rw [hstep]
    have ha := hok.advances
    cases hok with
    | register new root name box names =>
      exact h.withType ha
        (fun tag' => (Primitives.type?_withBox ..).trans (Primitives.type?_withType ..))
        (declaring?_next_extend ..)
    | registerExisting new bound =>
      exact h.withType ha (fun tag' => Primitives.type?_withType ..)
        (declaring?_bindSymbol bound (hc new))
    | bind bound => exact h.withStore ha
    | addType t => exact h.withStore ha
    | addSymbol symbol => exact h.withStore ha

theorem Declared.run (h : r.Declared) (hf : r.Feasible calls) : (r.run calls).Declared := by
  induction calls generalizing r with
  | nil => exact h
  | cons c rest ih => exact ih (h.step hf.1) hf.2

theorem declared_fresh (w : World) : (fresh w).Declared := by
  intro tag ty hty
  cases hty

/-! ## New types -/

/-- A type made for a tag: its form is that of the tag, and its declaring symbol is a class that has
this type. -/
structure MadeFor (s : Store) (tag : Tag) (ty : TypeId) : Prop where
  form : s.form? ty = some (.primitive tag)
  declared : ∃ d, s.declaring? ty = some d ∧ (s.classInfo? d).isSome ∧ s.typeOf d = ty

theorem MadeFor.mono {s s' : Store} {ty : TypeId} (h : MadeFor s tag ty) (hk : s.Keeps s') :
    MadeFor s' tag ty := by
  obtain ⟨d, hd, hclass, hty⟩ := h.declared
  obtain ⟨info, hinfo⟩ := Option.isSome_iff_exists.1 hclass
  obtain ⟨sym, hs, -⟩ := classInfo?_eq_some.1 hinfo
  exact ⟨hk.form h.form, d, hk.declaring hd, hk.isSome_classInfo? hclass,
    (hk.typeOf (hasSymbol_of_symbol? hs)).trans hty⟩

theorem madeFor_withPrimitive (s : Store) (root : SymbolId) (tag : Tag) (name : Name) :
    MadeFor (s.withPrimitive root tag name) tag s.nextType where
  form := by simp [form?, withPrimitive, type?_extend]
  declared := by
    refine ⟨s.nextSymbol, declaring?_next_extend .., ?_, ?_⟩
    · simp [classInfo?, withPrimitive, symbol?_extend, Symbol.classInfo?]
    · simp [typeOf, withPrimitive, symbol?_extend]

/-- A tag without a type has no wrapper. -/
def Unboxed (r : Registrar) : Prop := ∀ tag, r.type? tag = none → r.box? tag = none

theorem Unboxed.step (h : r.Unboxed) (c : Call) : (r.step c).2.Unboxed := by
  intro tag hnone
  rcases r.step_cases c with ⟨e, hstep⟩ | ⟨r', hstep, hok⟩
  · rw [hstep] at hnone ⊢
    exact h tag hnone
  · rw [hstep] at hnone ⊢
    cases hok with
    | register new root name box names =>
      have htype := (Primitives.type?_withBox ..).symm.trans hnone
      rw [Primitives.type?_withType] at htype
      split at htype
      · cases htype
      · next hne =>
        exact (Primitives.box?_withBox ..).trans ((if_neg fun he => hne he.1).trans (h tag htype))
    | @registerExisting tag' ty symbol s new bound =>
      have htype := (Primitives.type?_withType r.primitives tag' tag ty).symm.trans hnone
      split at htype
      · cases htype
      · exact h tag htype
    | bind bound => exact h tag hnone
    | addType t => exact h tag hnone
    | addSymbol symbol => exact h tag hnone

theorem Unboxed.run (h : r.Unboxed) (calls : List Call) : (r.run calls).Unboxed := by
  induction calls generalizing r with
  | nil => exact h
  | cons c rest ih => exact ih (h.step c)

theorem unboxed_fresh (w : World) : (fresh w).Unboxed := fun _ _ => rfl

/-- A type that was made stays what it was made, whatever follows. -/
theorem Made.madeFor {box : Option String} (h : Made w calls tag box) :
    ∃ ty, ((fresh w).run calls).type? tag = some ty ∧ MadeFor ((fresh w).run calls).store tag ty ∧
      ((fresh w).run calls).box? tag = box.map Primitives.boxName := by
  obtain ⟨earlier, root, name, later, rfl, hok⟩ := h
  have hunboxed := (unboxed_fresh w).run earlier
  rw [run_append]
  generalize (fresh w).run earlier = r at hok hunboxed ⊢
  rcases r.step_cases (.register root tag name box) with ⟨e, hstep⟩ | ⟨r', hstep, hsucc⟩
  · rw [hstep] at hok
    cases hok
  · have hlater : r.run (.register root tag name box :: later) = r'.run later :=
      congrArg (run · later) (congrArg Prod.snd hstep)
    have hlast := run_advances r' later
    rw [hlater]
    cases hsucc with
    | register new _ _ _ names =>
      have htype := (Primitives.type?_withBox (r.primitives.withType tag r.store.nextType) tag tag
        box).trans ((Primitives.type?_withType ..).trans (if_pos rfl))
      refine ⟨r.store.nextType, hlast.type? htype,
        (madeFor_withPrimitive r.store root tag name).mono hlast.keeps, ?_⟩
      rw [hlast.box? (Option.isSome_iff_exists.2 ⟨_, htype⟩)]
      refine (Primitives.box?_withBox ..).trans ?_
      cases box with
      | none => exact (if_neg (by simp)).trans (hunboxed tag new)
      | some simple => exact if_pos ⟨rfl, rfl⟩

/-- Wrappers are given by the calls that make types, and by no others. -/
theorem made_of_box? (w : World) (calls : List Call) {full : Name}
    (h : ((fresh w).run calls).box? tag = some full) :
    ∃ simple, Made w calls tag (some simple) ∧ full = Primitives.boxName simple := by
  induction calls using List.reverseRecOn with
  | nil => cases h
  | append_singleton calls c ih =>
    rw [run_append] at h
    change ((((fresh w).run calls).step c).2).box? tag = some full at h
    have hkept : ((fresh w).run calls).box? tag = some full →
        ∃ simple, Made w (calls ++ [c]) tag (some simple) ∧ full = Primitives.boxName simple := by
      intro hbox
      obtain ⟨simple, hmade, hfull⟩ := ih hbox
      exact ⟨simple, hmade.append [c], hfull⟩
    rcases ((fresh w).run calls).step_cases c with ⟨e, hstep⟩ | ⟨r', hstep, hok⟩
    · rw [hstep] at h
      exact hkept h
    · rw [hstep] at h
      cases hok with
      | @register tag' new root name box names =>
        have hbox := (Primitives.box?_withBox ..).symm.trans h
        split at hbox
        · next hnew =>
          obtain ⟨rfl, hsome⟩ := hnew
          obtain ⟨simple, rfl⟩ := Option.isSome_iff_exists.1 hsome
          exact ⟨simple, ⟨calls, root, name, [], rfl, congrArg Prod.fst hstep⟩,
            (Option.some.inj hbox).symm⟩
        · exact hkept hbox
      | registerExisting new bound => exact hkept h
      | bind bound => exact hkept h
      | addType t => exact hkept h
      | addSymbol symbol => exact hkept h

/-! ## The registry as a whole -/

/-- What is known of a registry after calls, begun with nothing registered. -/
structure WriteOnce (w : World) (calls : List Call) (r : Registrar) : Prop where
  /-- A tag gets a new type unless it has one. -/
  register_error : ∀ root tag name box e, (r.step (.register root tag name box)).1 = .error e ↔
    (r.type? tag).isSome ∧ e = .duplicatePrimitive tag
  /-- A tag gets a type there is unless it has one or another symbol declares the type. -/
  registerExisting_error : ∀ tag ty symbol e,
    (r.step (.registerExisting tag ty symbol)).1 = .error e ↔
      (r.type? tag).isSome ∧ e = .duplicatePrimitive tag ∨
      r.type? tag = none ∧ ∃ d, r.store.declaring? ty = some d ∧ d ≠ symbol ∧
        e = .symbolAlreadyBound ty d symbol
  bind_error : ∀ ty symbol e, (r.step (.bind ty symbol)).1 = .error e ↔
    ∃ d, r.store.declaring? ty = some d ∧ d ≠ symbol ∧ e = .symbolAlreadyBound ty d symbol
  /-- A call that fails changes neither the registry nor the world. -/
  unchanged : ∀ c e, (r.step c).1 = .error e → (r.step c).2 = r
  /-- A tag keeps its type and the type its declaring symbol, whatever is called next. -/
  permanent : ∀ tag ty, r.type? tag = some ty → ∃ d, ∀ more, (r.run more).type? tag = some ty ∧
    (r.run more).store.declaring? ty = some d
  /-- A type made for a tag has that tag, a class with this type declares it, and the tag has the
  wrapper that was given, if any. -/
  linked : ∀ tag box, Made w calls tag box → ∃ ty d, r.type? tag = some ty ∧
    r.store.type? ty = some ⟨.primitive tag, some d⟩ ∧ (r.store.classInfo? d).isSome ∧
    r.store.typeOf d = ty ∧ r.box? tag = box.map ("java.lang." ++ ·)
  distinct : ∀ tag tag' box box', Made w calls tag box → Made w calls tag' box' → tag ≠ tag' →
    r.type? tag ≠ r.type? tag'
  /-- No other tag has a wrapper. -/
  boxed : ∀ tag full, r.box? tag = some full ↔
    ∃ simple, Made w calls tag (some simple) ∧ full = "java.lang." ++ simple
  /-- The tag of a type is the first that has it. -/
  tagOf : ∀ ty tag, r.primitives.tagOf? ty = some tag ↔
    ∃ before after, Tag.primitives = before ++ tag :: after ∧ r.type? tag = some ty ∧
      ∀ earlier ∈ before, r.type? earlier ≠ some ty

theorem MadeFor.type? {s : Store} {ty : TypeId} (h : MadeFor s tag ty) :
    ∃ d, s.type? ty = some ⟨.primitive tag, some d⟩ ∧ (s.classInfo? d).isSome ∧ s.typeOf d = ty := by
  obtain ⟨d, hd, hclass, hty⟩ := h.declared
  obtain ⟨t, ht, hsymbol⟩ := Option.bind_eq_some_iff.1 hd
  obtain ⟨t', ht', hform⟩ := Option.map_eq_some_iff.1 h.form
  obtain rfl := Option.some.inj (ht.symm.trans ht')
  exact ⟨d, by rw [ht, ← hform, ← hsymbol], hclass, hty⟩

theorem tagOf?_eq_some_iff {p : Primitives} {ty : TypeId} : p.tagOf? ty = some tag ↔
    ∃ before after, Tag.primitives = before ++ tag :: after ∧ p.type? tag = some ty ∧
      ∀ earlier ∈ before, p.type? earlier ≠ some ty := by
  simp only [Primitives.tagOf?, List.find?_eq_some_iff_append, decide_eq_true_eq,
    Bool.not_eq_true', decide_eq_false_iff_not]
  constructor
  · rintro ⟨hty, before, after, hsplit, hfirst⟩
    exact ⟨before, after, hsplit, hty, hfirst⟩
  · rintro ⟨before, after, hsplit, hty, hfirst⟩
    exact ⟨hty, before, after, hsplit, hfirst⟩

/-- A registry is written once. However calls come and however they end, one fails only if its tag has
a type or if the type that it names is declared by another symbol, and then nothing changes; a tag
keeps its type, and a type that was made for a tag is linked to a class of its own. -/
theorem writeOnce (w : World) (calls : List Call) (h : (fresh w).Feasible calls) :
    WriteOnce w calls ((fresh w).run calls) where
  register_error _ _ _ _ _ := step_register_error_iff
  registerExisting_error _ _ _ _ := step_registerExisting_error_iff
  bind_error _ _ _ := step_bind_error_iff
  unchanged _ _ := step_of_error
  permanent tag ty hty := by
    obtain ⟨d, hd⟩ := (declared_fresh w).run h tag ty hty
    refine ⟨d, fun more => ?_⟩
    have hmore := run_advances ((fresh w).run calls) more
    exact ⟨hmore.type? hty, hmore.keeps.declaring hd⟩
  linked tag box hmade := by
    obtain ⟨ty, hty, hfor, hbox⟩ := hmade.madeFor
    obtain ⟨d, htype, hclass, htypeOf⟩ := hfor.type?
    exact ⟨ty, d, hty, htype, hclass, htypeOf, hbox⟩
  distinct tag tag' box box' hmade hmade' hne heq := by
    obtain ⟨ty, hty, hfor, -⟩ := hmade.madeFor
    obtain ⟨ty', hty', hfor', -⟩ := hmade'.madeFor
    obtain rfl := Option.some.inj (hty.symm.trans (heq.trans hty'))
    -- the form of one type names one tag
    exact hne (TyForm.primitive.inj (Option.some.inj (hfor.form.symm.trans hfor'.form)))
  boxed tag full := by
    constructor
    · exact made_of_box? w calls
    · rintro ⟨simple, hmade, rfl⟩
      obtain ⟨ty, -, -, hbox⟩ := hmade.madeFor
      exact hbox
  tagOf _ _ := tagOf?_eq_some_iff

/-- One type registered under two tags, between calls that fail. -/
theorem writeOnce_shared :
    ∃ calls r, calls = [Call.register ⟨0⟩ .int "int" (some "Integer"), .register ⟨0⟩ .int "int" none,
        .addType ⟨.cls, none⟩, .registerExisting .error ⟨2⟩ ⟨7⟩, .registerExisting .unknown ⟨2⟩ ⟨7⟩,
        .registerExisting .void ⟨2⟩ ⟨8⟩, .bind ⟨2⟩ ⟨9⟩, .register ⟨0⟩ .void "void" none] ∧
      (fresh .empty).Feasible calls ∧ r = (fresh .empty).run calls ∧ WriteOnce .empty calls r ∧
      r.type? .int = some ⟨1⟩ ∧ r.box? .int = some "java.lang.Integer" ∧ r.type? .error = some ⟨2⟩ ∧
      r.type? .unknown = some ⟨2⟩ ∧ r.store.declaring? ⟨2⟩ = some ⟨7⟩ ∧ r.type? .void = some ⟨3⟩ ∧
      r.primitives.tagOf? ⟨2⟩ = some .error := by
  refine ⟨_, _, rfl, ?feasible, rfl, writeOnce _ _ ?feasible, by decide, by decide, by decide,
    by decide, by decide, by decide, by decide⟩
  decide

end Registrar

end SymbolTable
