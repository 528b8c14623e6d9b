/-
The life of a class.

A registered class is lazy until it is completed, and from then on it is
completed or failed for good. `Phased` says that every registered class is
in one of these phases and that completers are left on registered classes
only. Entering names, putting a stand-in behind a class and completing one
keep it; what each does to a class other than its own is nothing.
-/
import SymbolTable.Proofs.Completing

namespace SymbolTable

/-- Where a class stands. -/
inductive Phase where
  | lazy
  | completed
  | failed
  deriving DecidableEq, Repr

namespace Phase

/-- Nothing was read of the class, and nothing went wrong. -/
structure IsUnread (m : Modifiers) (info : ClassInfo) : Prop where
  members : info.members = none
  supertype : info.supertype = none
  interfaces : info.interfaces = none
  typeParams : info.typeParams = none
  failure : info.failure = none
  modifiers : m = .empty

/-- A completer is pending on a class of which nothing was read. -/
structure IsLazy (m : Modifiers) (info : ClassInfo) : Prop extends IsUnread m info where
  completer : info.completer.isSome

/-- The class has an ordinary scope, and nothing is pending. -/
structure IsCompleted (info : ClassInfo) : Prop where
  completer : info.completer = none
  failure : info.failure = none
  members : ∃ sc, info.members = some sc ∧ sc.kind = .members

/-- The reason is kept with an empty error scope, and nothing else was read. -/
structure IsFailed (id : SymbolId) (m : Modifiers) (info : ClassInfo) : Prop where
  completer : info.completer = none
  failure : info.failure.isSome
  members : info.members = some (.erroneous id)
  supertype : info.supertype = none
  interfaces : info.interfaces = none
  typeParams : info.typeParams = none
  modifiers : m = .empty

/-- What is known of the class `id` in a phase. -/
def Holds (id : SymbolId) (m : Modifiers) (info : ClassInfo) : Phase → Prop
  | lazy => IsLazy m info
  | completed => IsCompleted info
  | failed => IsFailed id m info

theorem Holds.unique {id : SymbolId} {m : Modifiers} {info : ClassInfo} {p q : Phase}
    (hp : p.Holds id m info) (hq : q.Holds id m info) : p = q := by
  have pending : ∀ {p : Phase}, p.Holds id m info → (info.completer.isSome ↔ p = .lazy) := by
    intro p h
    cases p with
    | lazy => simp [h.completer]
    | completed => simp [h.completer]
    | failed => simp [h.completer]
  have broken : ∀ {p : Phase}, p.Holds id m info → (info.failure.isSome ↔ p = .failed) := by
    intro p h
    cases p with
    | lazy => simp [h.failure]
    | completed => simp [h.failure]
    | failed => simp [h.failure]
  have hlazy := (pending hp).symm.trans (pending hq)
  have hfailed := (broken hp).symm.trans (broken hq)
  cases p <;> cases q <;> simp_all

end Phase

namespace Store

variable {s s' s'' : Store} {id x : SymbolId} {p q : Phase}

/-- The symbol is a class in phase `p`. -/
def InPhase (s : Store) (id : SymbolId) (p : Phase) : Prop :=
  ∃ sym info, s.symbol? id = some sym ∧ sym.body = .cls info ∧ p.Holds id sym.modifiers info

theorem InPhase.unique (hp : s.InPhase id p) (hq : s.InPhase id q) : p = q := by
  obtain ⟨sym, info, hs, hb, hp⟩ := hp
  obtain ⟨sym', info', hs', hb', hq⟩ := hq
  obtain rfl := Option.some.inj (hs.symm.trans hs')
  obtain rfl := SymbolBody.cls.inj (hb.symm.trans hb')
  exact hp.unique hq

theorem InPhase.hasSymbol (h : s.InPhase id p) : s.HasSymbol id := by
  obtain ⟨sym, _, hs, -⟩ := h
  exact hasSymbol_of_symbol? hs

theorem InPhase.completer? (h : s.InPhase id p) : (s.completer? id).isSome ↔ p = .lazy := by
  obtain ⟨sym, info, hs, hb, hp⟩ := h
  have hc : s.completer? id = info.completer := by
    simp [Store.completer?, classInfo?_eq_some.2 ⟨sym, hs, hb⟩]
  rw [hc]
  cases p with
  | lazy => simp [hp.completer]
  | completed => simp [hp.completer]
  | failed => simp [hp.completer]

/-! ## The same classes -/

/-- The class `y` is the same in both stores. -/
def SameClass (s s' : Store) (y : SymbolId) : Prop :=
  ∀ sym info, sym.body = .cls info → (s'.symbol? y = some sym ↔ s.symbol? y = some sym)

theorem SameClass.trans {y : SymbolId} (h : s.SameClass s' y) (h' : s'.SameClass s'' y) :
    s.SameClass s'' y := fun sym info hb => (h' sym info hb).trans (h sym info hb)

theorem SameClass.inPhase {y : SymbolId} (h : s.SameClass s' y) :
    s'.InPhase y p ↔ s.InPhase y p := by
  constructor
  · intro h'
    obtain ⟨sym, info, hs, hb, hp⟩ := h'
    exact ⟨sym, info, (h sym info hb).1 hs, hb, hp⟩
  · intro h'
    obtain ⟨sym, info, hs, hb, hp⟩ := h'
    exact ⟨sym, info, (h sym info hb).2 hs, hb, hp⟩

theorem SameClass.completer? {y : SymbolId} {c : Completer} (h : s.SameClass s' y)
    (hc : s'.completer? y = some c) : s.completer? y = some c := by
  obtain ⟨sym, info, hs, hb, hc⟩ := completer?_eq_some.1 hc
  exact completer?_eq_some.2 ⟨sym, info, (h sym info hb).1 hs, hb, hc⟩

theorem sameClass_update {y : SymbolId} (s : Store) (f : Symbol → Symbol) (hne : y ≠ id) :
    s.SameClass (s.update id f) y := fun _ _ _ => by rw [symbol?_update_other s f hne]

/-- A symbol that is no class leaves every class alone. -/
theorem sameClass_addSymbol (s : Store) {symbol : Symbol} (hb : ∀ info, symbol.body ≠ .cls info)
    (y : SymbolId) : s.SameClass (s.addSymbol symbol).2 y := by
  intro sym info hsym
  rw [symbol?_addSymbol]
  split
  · next hy =>
    subst hy
    constructor
    · intro h
      obtain rfl := Option.some.inj h
      exact absurd hsym (hb info)
    · intro h
      exact absurd rfl (hasSymbol_of_symbol? h).ne_next
  · rfl

theorem sameClass_extend (s : Store) (t : Ty) {symbol : Symbol}
    (hb : ∀ info, symbol.body ≠ .cls info) (y : SymbolId) : s.SameClass (s.extend t symbol) y :=
  sameClass_addSymbol (s.addType t).2 hb y

theorem sameClass_addModifiers {y : SymbolId} (s : Store) (m : Modifiers) (hne : y ≠ id) :
    s.SameClass (s.addModifiers id m) y := sameClass_update s _ hne

theorem sameClass_withMethod {y : SymbolId} (s : Store) (modifiers : Modifiers) (name : Name)
    (signature : Signature) (mc : SymbolId) (hne : y ≠ id) :
    s.SameClass (s.withMethod modifiers name signature id mc) y :=
  (sameClass_extend s _ (by simp) y).trans (sameClass_update _ _ hne)

theorem sameClass_filled {y : SymbolId} (s : Store) (m : Modifiers) (supertype : Option TypeId)
    (interfaces : List TypeId) (hne : y ≠ id) :
    s.SameClass (s.filled id m supertype interfaces) y :=
  (sameClass_addModifiers s m hne).trans (sameClass_update _ _ hne)

theorem sameClass_standIn {y : SymbolId} (s : Store) (f : Completer) (hne : y ≠ id) :
    s.SameClass (s.standIn id f) y := by
  have hbelow : ∀ m object, s.SameClass ((s.addModifiers id m).below id object) y := fun m object =>
    (sameClass_addModifiers s m hne).trans (sameClass_update _ _ hne)
  cases f with
  | emptyInterface object => exact hbelow _ object
  | box plan =>
    exact (hbelow _ plan.object).trans ((sameClass_withMethod _ _ _ _ _ hne).trans
      (sameClass_withMethod _ _ _ _ _ hne))
  | _ => exact fun _ _ _ => Iff.rfl

/-! ## Phased stores -/

/-- Apart from the classes in `out`, every registered class is in a phase, and a pending completer
reads the definition of a registered class. -/
structure PhasedBut (s : Store) (out : SymbolId → Prop) : Prop where
  phase : ∀ {flat id}, s.class? flat = some id → ¬ out id → ∃ p, s.InPhase id p
  pending : ∀ {id c}, s.completer? id = some c → ¬ out id →
    ∃ flat, s.class? flat = some id ∧ c.Reads flat

/-- Every registered class is in a phase, and completers are on registered classes only. -/
abbrev Phased (s : Store) : Prop := s.PhasedBut fun _ => False

variable {out out' : SymbolId → Prop}

theorem PhasedBut.of_same (h : s.PhasedBut out) (hout : ∀ y, out y → out' y)
    (hmap : s'.classes = s.classes) (hsame : ∀ y, ¬ out' y → s.SameClass s' y) :
    s'.PhasedBut out' where
  phase {flat id} hc hid := by
    have hc' : s.class? flat = some id := by simpa only [class?, hmap] using hc
    obtain ⟨p, hp⟩ := h.phase hc' fun ho => hid (hout id ho)
    exact ⟨p, (hsame id hid).inPhase.2 hp⟩
  pending {id c} hc hid := by
    obtain ⟨flat, hf, hreads⟩ :=
      h.pending ((hsame id hid).completer? hc) fun ho => hid (hout id ho)
    exact ⟨flat, by simpa only [class?, hmap] using hf, hreads⟩

/-- A class left aside is taken back in. -/
theorem PhasedBut.close (h : s.PhasedBut (· = x)) (hphase : ∃ p, s.InPhase x p)
    (hpending : ∀ c, s.completer? x = some c → ∃ flat, s.class? flat = some x ∧ c.Reads flat) :
    s.Phased where
  phase {_ id} hc _ := by
    by_cases hid : id = x
    · exact hid ▸ hphase
    · exact h.phase hc hid
  pending {id c} hc _ := by
    by_cases hid : id = x
    · exact hid ▸ hpending c (hid ▸ hc)
    · exact h.pending hc hid

/-- A symbol on which no completer is pending is added. -/
theorem Phased.extend (h : s.Phased) (hr : s.Registered) (t : Ty) {symbol : Symbol}
    (hb : ∀ info, symbol.body = .cls info → info.completer = none) :
    (s.extend t symbol).Phased where
  phase hc _ := by
    obtain ⟨p, sym, info, hs, hp⟩ := h.phase hc not_false
    exact ⟨p, sym, info, by rw [symbol?_extend_old (hr.hasSymbol hc), hs], hp⟩
  pending hc _ := by
    obtain ⟨sym, info, hs, hb', hc⟩ := completer?_eq_some.1 hc
    rw [symbol?_extend] at hs
    split at hs
    · obtain rfl := Option.some.inj hs
      rw [hb info hb'] at hc
      cases hc
    · exact h.pending (completer?_eq_some.2 ⟨sym, info, hs, hb', hc⟩) not_false

/-- A class is completed, or stays so. -/
theorem Phased.of_completed (h : s.Phased) (hmap : s'.classes = s.classes)
    (hsame : ∀ y, y ≠ x → s.SameClass s' y) (hx : s'.InPhase x .completed) : s'.Phased := by
  have hbut : s'.PhasedBut (· = x) := h.of_same (fun _ => False.elim) hmap hsame
  refine hbut.close ⟨_, hx⟩ fun c hc => ?_
  have hlazy := hx.completer?.1 (by simp [hc])
  cases hlazy

/-- A class is registered. -/
theorem Phased.insertClass (h : s.Phased) {flat : Name} (hnew : s.class? flat = none)
    (hx : s.InPhase x p) : (s.insertClass flat x).Phased where
  phase {n id} hc _ := by
    rw [class?_insertClass] at hc
    split at hc
    · exact Option.some.inj hc ▸ ⟨p, hx⟩
    · exact h.phase hc not_false
  pending {id c} hc _ := by
    obtain ⟨n, hn, hreads⟩ := h.pending hc not_false
    exact ⟨n, (keeps_insertClass x hnew).cls hn, hreads⟩

/-! ## Entering names -/

theorem inPhase_entered {simple flat : Name} {ty : TypeId} {owner : SymbolId}
    (h : s.symbol? id = some (.entered simple flat ty owner)) : s.InPhase id .lazy :=
  ⟨_, _, h, rfl, ⟨rfl, rfl, rfl, rfl, rfl, rfl⟩, rfl⟩

theorem InPhase.entering (h : s.InPhase id p) (hr : s.Registered) (he : s.Entering s') :
    s'.InPhase id p := by
  obtain ⟨sym, info, hs, hb, hp⟩ := h
  exact ⟨sym, info, he.symbol? hr hs (by simp [hb]), hb, hp⟩

theorem PhasedBut.enters (h : s.PhasedBut out) (hr : s.Registered) (he : s.Enters s') :
    s'.PhasedBut out where
  phase hc hid := by
    rcases he.class? hr hc with hc | ⟨-, _, _, hs⟩
    · obtain ⟨p, hp⟩ := h.phase hc hid
      exact ⟨p, hp.entering hr (.single he)⟩
    · exact ⟨.lazy, inPhase_entered hs⟩
  pending hc hid := by
    obtain ⟨sym, info, hs, hb, hc⟩ := completer?_eq_some.1 hc
    rcases he.classes hr hs hb with hs | ⟨hcls, _, _, _, rfl⟩
    · obtain ⟨flat, hf, hreads⟩ := h.pending (completer?_eq_some.2 ⟨sym, info, hs, hb, hc⟩) hid
      exact ⟨flat, he.keeps.cls hf, hreads⟩
    · rw [← SymbolBody.cls.inj hb] at hc
      obtain rfl := Option.some.inj hc
      exact ⟨_, hcls, .classFile⟩

/-- Resolution enters lazy classes and leaves the others alone. -/
theorem PhasedBut.entering (h : s.PhasedBut out) (hr : s.Registered) (he : s.Entering s') :
    s'.PhasedBut out := by
  induction he with
  | refl => exact h
  | tail hpath hstep ih => exact ih.enters (hr.entering hpath) hstep

/-! ## Standing in -/

theorem symbol?_mapClass {sym : Symbol} {info : ClassInfo} (hs : s.symbol? id = some sym)
    (hb : sym.body = .cls info) (f : ClassInfo → ClassInfo) :
    (s.update id (Symbol.mapClass f)).symbol? id = some { sym with body := .cls (f info) } := by
  simp [symbol?_update_self, hs, Symbol.mapClass, hb]

/-- A stand-in goes behind the completer of a lazy class, and the class is lazy still. -/
theorem InPhase.fallBack (h : s.InPhase id p) (x : SymbolId) (f : Completer) :
    (s.fallBack x f).InPhase id p := by
  unfold Store.fallBack
  split
  · exact h
  · next base hbase =>
    by_cases hx : id = x
    · subst hx
      obtain rfl : p = .lazy := h.completer?.1 (by simp [hbase])
      obtain ⟨sym, info, hs, hb, hlazy⟩ := h
      exact ⟨_, _, symbol?_mapClass hs hb _, rfl, { hlazy with completer := rfl }⟩
    · exact (sameClass_update s _ hx).inPhase.2 h

theorem Phased.fallBack (h : s.Phased) (id : SymbolId) {f : Completer} (hf : f.IsStandin) :
    (s.fallBack id f).Phased where
  phase {flat x} hc _ := by
    have hc' : s.class? flat = some x := by
      unfold Store.fallBack at hc
      split at hc <;> exact hc
    obtain ⟨p, hp⟩ := h.phase hc' not_false
    exact ⟨p, hp.fallBack id f⟩
  pending {x c} hc _ := by
    unfold Store.fallBack at hc ⊢
    split at hc
    · exact h.pending hc not_false
    · next base hbase =>
      by_cases hx : x = id
      · subst hx
        obtain ⟨flat, hflat, hreads⟩ := h.pending hbase not_false
        obtain ⟨sym, info, hs, hb, -⟩ := completer?_eq_some.1 hbase
        have hset := symbol?_mapClass hs hb fun info =>
          { info with completer := some (.orElse base f) }
        obtain ⟨sym', info', hs', hb', hc'⟩ := completer?_eq_some.1 hc
        obtain rfl := Option.some.inj (hset.symm.trans hs')
        obtain rfl := SymbolBody.cls.inj hb'
        obtain rfl := Option.some.inj hc'
        exact ⟨flat, hflat, .orElse hreads hf⟩
      · exact h.pending ((sameClass_update s _ hx).completer? hc) not_false

/-! ## Completing -/

/-- The class lost its completer, and nothing of it was read. -/
def Unread (s : Store) (id : SymbolId) : Prop :=
  ∃ sym info, s.symbol? id = some sym ∧ sym.body = .cls info ∧ info.completer = none ∧
    Phase.IsUnread sym.modifiers info

theorem InPhase.dropCompleter (h : s.InPhase id .lazy) : (s.dropCompleter id).Unread id := by
  obtain ⟨sym, info, hs, hb, hlazy⟩ := h
  exact ⟨_, _, symbol?_mapClass hs hb _, rfl, rfl, { hlazy.toIsUnread with }⟩

theorem Unread.entering (h : s.Unread id) (hr : s.Registered) (he : s.Entering s') :
    s'.Unread id := by
  obtain ⟨sym, info, hs, hb, h⟩ := h
  exact ⟨sym, info, he.symbol? hr hs (by simp [hb]), hb, h⟩

theorem Unread.recordFailure (h : s.Unread id) (kind : FailureKind) :
    (s.recordFailure id kind).InPhase id .failed := by
  obtain ⟨sym, info, hs, hb, hc, h⟩ := h
  refine ⟨_, _, symbol?_mapClass hs hb _, rfl, ?_⟩
  exact { h with completer := hc, failure := rfl, members := by simp [h.members] }

/-- A class that was not read is complete once it has a scope of its own, whatever else it gets. -/
theorem Unread.completed (h : s.Unread id) (m : Modifiers) {f : ClassInfo → ClassInfo}
    (hf : ∀ info, (f info).completer = info.completer ∧ (f info).failure = info.failure ∧
      (f info).members = some (info.members.getD (.members id))) :
    ((s.addModifiers id m).update id (Symbol.mapClass f)).InPhase id .completed := by
  obtain ⟨sym, info, hs, hb, hc, h⟩ := h
  obtain ⟨hcompleter, hfailure, hmembers⟩ := hf info
  have hs' := symbol?_addModifiers hs m
  refine ⟨_, _, symbol?_mapClass hs' hb f, rfl, hcompleter.trans hc, hfailure.trans h.failure, ?_⟩
  exact ⟨.members id, by simp [hmembers, h.members], rfl⟩

theorem InPhase.mapClass (h : s.InPhase id .completed) {f : ClassInfo → ClassInfo}
    (hf : ∀ info, Phase.IsCompleted info → Phase.IsCompleted (f info)) :
    (s.update id (Symbol.mapClass f)).InPhase id .completed := by
  obtain ⟨sym, info, hs, hb, hdone⟩ := h
  exact ⟨_, _, symbol?_mapClass hs hb f, rfl, hf info hdone⟩

/-- A class that is complete stays so as it gets a member. -/
theorem InPhase.mapMembers (h : s.InPhase id .completed) (name : Name) (member : SymbolId) :
    (s.update id (Symbol.mapMembers fun scope => scope.enter name member)).InPhase id
      .completed := by
  obtain ⟨sym, info, hs, hb, hc, hf, sc, hm, hkind⟩ := h
  have hs' : (s.update id (Symbol.mapMembers fun scope => scope.enter name member)).symbol? id =
      some { sym with body := .cls { info with members := some (sc.enter name member) } } := by
    rw [symbol?_update_self, hs]
    simp [Symbol.mapMembers, hb, hm]
  exact ⟨_, _, hs', rfl, hc, hf, _, rfl, hkind⟩

theorem InPhase.members? (h : s.InPhase id .completed) :
    ∃ sc, s.members? id = some sc ∧ sc.isError = false := by
  obtain ⟨sym, info, hs, hb, -, -, sc, hm, hkind⟩ := h
  refine ⟨sc, ?_, by simp [Scope.isError, hkind]⟩
  rw [members?_of_classInfo? (classInfo?_eq_some.2 ⟨sym, hs, hb⟩), hm]

theorem InPhase.enterMember (h : s.InPhase id .completed) (member : SymbolId) :
    s.enterMember id member =
      .ok (s.update id (Symbol.mapMembers fun scope => scope.enter (s.nameOf member) member)) := by
  obtain ⟨sc, hm, -⟩ := h.members?
  simp [Store.enterMember, hm]

/-- What a complete class has after an entry: what it had, and the symbol entered. -/
theorem InPhase.lookupMember (h : s.InPhase id .completed) (name n : Name) (member : SymbolId) :
    (s.update id (Symbol.mapMembers fun scope => scope.enter name member)).lookupMember id n =
      s.lookupMember id n ++ if n = name then [member] else [] := by
  obtain ⟨sc, hm, herr⟩ := h.members?
  exact lookupMember_enter hm herr name n member

theorem InPhase.extend (h : s.InPhase id p) (t : Ty) (symbol : Symbol) :
    (s.extend t symbol).InPhase id p := by
  obtain ⟨sym, info, hs, hp⟩ := h
  exact ⟨sym, info, by rw [symbol?_extend_old (hasSymbol_of_symbol? hs), hs], hp⟩

theorem InPhase.withMethod (h : s.InPhase id .completed) (modifiers : Modifiers) (name : Name)
    (signature : Signature) (mc : SymbolId) :
    (s.withMethod modifiers name signature id mc).InPhase id .completed :=
  (h.extend _ _).mapMembers name s.nextSymbol

theorem Unread.standIn (h : s.Unread id) {f : Completer} (hf : f.IsStandin) :
    (s.standIn id f).InPhase id .completed := by
  cases hf with
  | emptyInterface object => exact h.completed _ (by simp)
  | box plan =>
    have hbelow : ((s.addModifiers id (.single .isPublic)).below id plan.object).InPhase id
        .completed := h.completed _ (by simp)
    exact (hbelow.withMethod _ _ _ _).withMethod _ _ _ _

end Store

/-- The phase that a completion leads to. -/
def Phase.ofOutcome : Completed → Phase
  | .ok _ => .completed
  | .error _ => .failed

namespace Store.Completes

variable {s s' : Store} {path : ClassPath} {flat : Name} {id : SymbolId} {c : Completer}
  {o : Completed}

/-- The class ends in the phase that the outcome says. -/
theorem inPhase (h : s.Completes path flat id c o s') (hreg : s.Registered) (hu : s.Unread id)
    (hr : c.Reads flat) : s'.InPhase id (.ofOutcome o) := by
  cases h with
  | read _ _ asked _ _ => exact (hu.entering hreg asked.entering).completed _ (by simp)
  | stoodFor _ standin => exact hu.standIn (hr.isStandin standin)
  | corrupt _ _ => exact hu.recordFailure _
  | missing _ _ => exact hu.recordFailure _

/-- No other class changes. -/
theorem symbol? (h : s.Completes path flat id c o s') (hreg : s.Registered) {y : SymbolId}
    {sym : Symbol} {info : ClassInfo} (hs : s.symbol? y = some sym) (hb : sym.body = .cls info)
    (hne : y ≠ id) : s'.symbol? y = some sym := by
  cases h with
  | read _ _ asked _ _ =>
    exact (sameClass_filled _ _ _ _ hne sym info hb).2 (asked.entering.symbol? hreg hs (by simp [hb]))
  | stoodFor _ _ => exact (sameClass_standIn _ _ hne sym info hb).2 hs
  | corrupt _ _ => exact (sameClass_update _ _ hne sym info hb).2 hs
  | missing _ _ => exact (sameClass_update _ _ hne sym info hb).2 hs

/-- The classes that a completion enters are lazy. -/
theorem phasedBut (h : s.Completes path flat id c o s') (hreg : s.Registered)
    (hp : s.PhasedBut (· = id)) : s'.PhasedBut (· = id) := by
  cases h with
  | @read d s₁ supertype interfaces _ _ asked _ _ =>
    exact (hp.entering hreg asked.entering).of_same (fun _ hy => hy) rfl fun y hy =>
      sameClass_filled _ _ _ _ hy
  | @stoodFor f _ _ =>
    exact hp.of_same (fun _ hy => hy) (s.maps_standIn id f).1 fun y hy => sameClass_standIn _ _ hy
  | corrupt _ _ => exact hp.of_same (fun _ hy => hy) rfl fun y hy => sameClass_update _ _ hy
  | missing _ _ => exact hp.of_same (fun _ hy => hy) rfl fun y hy => sameClass_update _ _ hy

end Store.Completes

namespace World

open Store

variable {w : World}

/-- Completing a pending class moves it to the phase of the outcome. -/
theorem complete_inPhase (hreg : w.store.Registered) (hp : w.store.Phased) {id : SymbolId}
    {c : Completer} (hc : w.store.completer? id = some c) :
    (w.complete ClassPath.resolver id).2.store.InPhase id
      (.ofOutcome (w.complete ClassPath.resolver id).1) := by
  obtain ⟨flat, hflat, hr⟩ := hp.pending hc not_false
  obtain ⟨p, hphase⟩ := hp.phase hflat not_false
  obtain rfl : p = .lazy := hphase.completer?.1 (by simp [hc])
  exact (complete_completes hreg hc hr).inPhase (hreg.of_maps (keeps_dropCompleter _ id) rfl rfl)
    hphase.dropCompleter hr

/-- Completing a class leaves every other class as it is. -/
theorem complete_symbol? (hreg : w.store.Registered) (hp : w.store.Phased) {id y : SymbolId}
    {sym : Symbol} {info : ClassInfo} (hs : w.store.symbol? y = some sym) (hb : sym.body = .cls info)
    (hne : y ≠ id) : (w.complete ClassPath.resolver id).2.store.symbol? y = some sym := by
  cases hc : w.store.completer? id with
  | none => rwa [complete_of_done hc]
  | some c =>
    obtain ⟨flat, hflat, hr⟩ := hp.pending hc not_false
    refine (complete_completes hreg hc hr).symbol? (hreg.of_maps (keeps_dropCompleter _ id) rfl rfl)
      ?_ hb hne
    rw [dropCompleter, symbol?_update_other _ _ hne, hs]

theorem complete_phased (hreg : w.store.Registered) (hp : w.store.Phased) (id : SymbolId) :
    (w.complete ClassPath.resolver id).2.store.Phased := by
  cases hc : w.store.completer? id with
  | none => rwa [complete_of_done hc]
  | some c =>
    obtain ⟨flat, hflat, hr⟩ := hp.pending hc not_false
    have hbut : (w.store.dropCompleter id).PhasedBut (· = id) :=
      hp.of_same (fun _ => False.elim) rfl fun y hy => sameClass_update _ _ hy
    have hphase := complete_inPhase hreg hp hc
    refine ((complete_completes hreg hc hr).phasedBut
      (hreg.of_maps (keeps_dropCompleter _ id) rfl rfl) hbut).close ⟨_, hphase⟩ fun c' hc' => ?_
    -- the class is lazy no more, so there is no completer left on it
    have hlazy := hphase.completer?.1 (by simp [hc'])
    cases hout : (w.complete ClassPath.resolver id).1 <;> simp [hout, Phase.ofOutcome] at hlazy

end World

end SymbolTable
