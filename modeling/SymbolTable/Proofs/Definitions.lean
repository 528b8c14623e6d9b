/-
The definitions that a completion goes by.

Only edits change the class path: resolving, completing, standing in and
building a table leave it alone. So after any run the definition of a name
is what the last edit of it said, and that alone decides how the completion
of its class ends. Once a class is completed, edits no longer reach it.

A class path may be cloned, and its clones share the definitions: whichever
of them an operation goes through, all of them lead to one session (`Shared`).
-/
import Mathlib.Data.List.Induction
import SymbolTable.Proofs.Histories
import SymbolTable.Proofs.Independence
import SymbolTable.Proofs.Registry

namespace SymbolTable

open Build TableM Store

/-! ## Resolving -/

namespace ClassPath

theorem path_askClass (flat : Name) (w : World) : (resolver.askClass flat w).2.path = w.path :=
  (askClass_oblivious flat).path w

theorem path_askPackage (full : Name) (w : World) :
    (resolver.askPackage full w).2.path = w.path :=
  (World.enterPackageIn_oblivious full full.outerPackages).path
    { w with requests := w.requests ++ [.package full] }

theorem path_askTypes (flats : List Name) (w : World) :
    (resolver.askTypes flats w).2.path = w.path :=
  (askTypes_oblivious flats).path w

end ClassPath

/-! ## Completing -/

namespace World

theorem path_settle (w : World) (blame : FailureKind → CompletionFailure)
    (e : Except TableError Store) : (w.settle blame e).2.path = w.path := by
  cases e <;> rfl

theorem path_readDefinition (flat : Name) (id : SymbolId) (w : World) :
    (w.readDefinition ClassPath.resolver flat id).2.path = w.path := by
  unfold readDefinition
  split
  · rfl
  · split
    · rfl
    · exact (path_settle _ _ _).trans ((ClassPath.path_askTypes _ _).trans (ClassPath.path_askTypes _ _))

theorem path_run {nested : SymbolId → World → Completed × World}
    (hnested : ∀ id w, (nested id w).2.path = w.path) (c : Completer)
    (given : Option CompletionFailure) (id : SymbolId) (w : World) :
    (c.run ClassPath.resolver nested given id w).2.path = w.path := by
  induction c generalizing given w with
  | done => rfl
  | classFile flat => exact path_readDefinition flat id w
  | emptyInterface object => exact path_settle _ _ _
  | box plan => exact path_settle _ _ _
  | orElse base fallback ihBase ihFallback =>
    have hbase := ihBase none w
    simp only [Completer.run]
    split
    · next heq => rw [← hbase, heq]
    · next failure w' heq =>
      rw [heq] at hbase
      split
      · exact (ihFallback _ w').trans hbase
      · exact hbase
  | modify m next ih => exact ih given _
  | openMembers next ih =>
    simp only [Completer.run]
    split
    · exact ih given _
    · exact ih given _
  | request flat next ih => exact (ih given _).trans (ClassPath.path_askClass flat (w.see flat))
  | complete flat next ih =>
    simp only [Completer.run]
    split
    · exact ih given _
    · next other _ =>
      have hother := hnested other (w.see flat)
      split
      · next w' heq =>
        rw [heq] at hother
        exact (ih given w').trans hother
      · next heq =>
        rw [heq] at hother
        exact hother
  | install completer next _ ih => exact ih given _
  | notFound name => rfl
  | badClassFile name reason => rfl
  | rethrow next ih =>
    cases given with
    | none => exact ih none w
    | some failure => rfl

theorem path_completeWithin (depth : Nat) (id : SymbolId) (w : World) :
    (completeWithin ClassPath.resolver depth id w).2.path = w.path := by
  induction depth generalizing id w with
  | zero => rfl
  | succ depth ih =>
    unfold completeWithin
    split
    · rfl
    · next completer _ =>
      have hrun := path_run ih completer none id { w with store := w.store.dropCompleter id }
      split
      · next heq =>
        rw [heq] at hrun
        exact hrun
      · next heq =>
        rw [heq] at hrun
        exact hrun

theorem path_complete (id : SymbolId) (w : World) :
    (w.complete ClassPath.resolver id).2.path = w.path :=
  path_completeWithin _ id w

end World

/-- How the completion of the class of a name ends, as the class path and the completer have it. -/
def Completer.outcome (path : ClassPath) (flat : Name) (id : SymbolId) (c : Completer) : Completed :=
  match path.get? flat with
  | some d =>
    match d.corrupt with
    | some reason => .error ⟨id, flat, .badClassFile reason⟩
    | none => .ok ()
  | none => if c.standin?.isSome then .ok () else .error ⟨id, flat, .notFound⟩

theorem Store.Completes.outcome_eq {s s' : Store} {path : ClassPath} {flat : Name} {id : SymbolId}
    {c : Completer} {o : Completed} (h : s.Completes path flat id c o s') :
    o = c.outcome path flat id := by
  unfold Completer.outcome
  cases h with
  | read found readable => simp [found, readable]
  | stoodFor missing standin => simp [missing, standin]
  | corrupt found unreadable => simp [found, unreadable]
  | missing missing alone => simp [missing, alone]

/-! ## New classes -/

theorem Store.Entering.entered {s s' : Store} (hr : s.Registered) (he : s.Entering s') {n : Name}
    {id : SymbolId} (hc : s'.class? n = some id) : s.class? n = some id ∨
      ∃ simple ty owner, s'.symbol? id = some (.entered simple n ty owner) := by
  induction he with
  | refl => exact .inl hc
  | tail hpath hstep ih =>
    have hr₁ := hr.entering hpath
    rcases hstep.class? hr₁ hc with hc₁ | ⟨-, simple, owner, hs⟩
    · refine (ih hc₁).imp_right fun ⟨simple, ty, owner, hs⟩ => ⟨simple, ty, owner, ?_⟩
      exact hstep.symbol? hr₁ hs (by simp [Symbol.entered])
    · exact .inr ⟨simple, _, owner, hs⟩

/-! ## Sessions -/

theorem World.get?_defineAll (w : World) (names : List Name) (d : ClassDef) (n : Name) :
    (w.defineAll (names.map fun flat => (flat, d))).path.get? n =
      if n ∈ names then some d else w.path.get? n := by
  induction names generalizing w with
  | nil => rfl
  | cons flat names ih =>
    rw [List.map_cons, World.defineAll, List.foldl_cons]
    refine (ih (w.define flat d)).trans ?_
    have hdefine : (w.define flat d).path.get? n = if n = flat then some d else w.path.get? n :=
      OrderedMap.get?_insert ..
    by_cases hn : n ∈ names
    · simp [hn]
    · simp [hn, hdefine]

namespace Session

/-- What an operation makes of the definition of a name, if it edits it. -/
def Op.edit? (n : Name) : Op → Option (Option ClassDef)
  | .define flat d => if flat = n then some (some d) else none
  | .undefine flat => if flat = n then some none else none
  | .defineCore =>
    if n ∈ Catalog.flatNames Catalog.core then some (some (.below objectName)) else none
  | _ => none

/-- The definition that a name has after a run, given the one it had before. -/
def definitionAfter (given : Option ClassDef) (ops : List Op) (n : Name) : Option ClassDef :=
  ((ops.filterMap (·.edit? n)).getLast?).getD given

theorem get?_step (st : Session) (op : Op) (n : Name) :
    (st.step op).world.path.get? n = (op.edit? n).getD (st.world.path.get? n) := by
  cases op with
  | define flat d =>
    have hinsert : (st.step (.define flat d)).world.path.get? n =
        if n = flat then some d else st.world.path.get? n := OrderedMap.get?_insert ..
    rw [hinsert]
    by_cases hn : flat = n
    · simp [Op.edit?, hn]
    · simp [Op.edit?, hn, Ne.symm hn]
  | undefine flat =>
    have herase : (st.step (.undefine flat)).world.path.get? n =
        if n = flat then none else st.world.path.get? n := OrderedMap.get?_erase ..
    rw [herase]
    by_cases hn : flat = n
    · simp [Op.edit?, hn]
    · simp [Op.edit?, hn, Ne.symm hn]
  | defineCore =>
    refine (World.get?_defineAll st.world _ _ n).trans ?_
    by_cases hn : n ∈ Catalog.flatNames Catalog.core
    · simp [Op.edit?, hn]
    · simp [Op.edit?, hn]
  | resolveClass flat => exact congrArg (·.get? n) (ClassPath.path_askClass flat (st.world.see flat))
  | resolvePackage full =>
    exact congrArg (·.get? n) (ClassPath.path_askPackage full (st.world.see full))
  | complete id => exact congrArg (·.get? n) (World.path_complete id st.world)
  | standForInterface ty =>
    simp only [Session.step]
    split <;> rfl
  | standForBox ty =>
    exact congrArg (·.get? n) ((Build.standForBox_oblivious st.table.standins ty).path st.world)
  | loadCore =>
    have hpath := (ClassPath.askTier_oblivious Catalog.core).path st.world
    cases hask : ClassPath.resolver.askTier Catalog.core st.world with
    | mk core w =>
      rw [hask] at hpath
      rw [step_loadCore hask, hpath]
      rfl

/-- After a run, a name is defined as its last edit says. -/
theorem get?_run (st : Session) (ops : List Op) (n : Name) :
    (st.run ops).world.path.get? n = definitionAfter (st.world.path.get? n) ops n := by
  induction ops using List.reverseRecOn with
  | nil => rfl
  | append_singleton ops op ih =>
    rw [run, List.foldl_append, List.foldl_cons, List.foldl_nil, ← run, get?_step, ih]
    simp only [definitionAfter, List.filterMap_append, List.filterMap_cons, List.filterMap_nil]
    cases op.edit? n with
    | none => simp
    | some edit => simp

/-- A class that a request enters is to be read from its definition. -/
theorem Sound.completer?_resolveClass {st : Session} (h : st.Sound) {n : Name}
    (hnew : st.store.class? n = none) : ∃ id, (st.step (.resolveClass n)).store.class? n = some id ∧
      (st.step (.resolveClass n)).store.completer? id = some (.classFile n) := by
  have hreg : (st.world.see n).store.Registered := h.store.registered
  have hentered := ClassPath.askClass_entered n hreg
  rcases hentered.entering.entered hreg hentered.found with hold | ⟨simple, ty, owner, hs⟩
  · exact absurd (hnew.symm.trans hold) (Option.some_ne_none _).symm
  · exact ⟨_, hentered.found, completer?_eq_some.2 ⟨_, _, hs, rfl, rfl⟩⟩

/-- How the completion of the class of a name ends if this is its definition, and what becomes of
the class afterwards. -/
structure DecidedBy (st : Session) (id : SymbolId) (n : Name) (definition : Option ClassDef) :
    Prop where
  registered : st.store.class? n = some id
  missing : (st.world.complete ClassPath.resolver id).1 = .error ⟨id, n, .notFound⟩ ↔
    definition = none
  corrupt : ∀ reason,
    (st.world.complete ClassPath.resolver id).1 = .error ⟨id, n, .badClassFile reason⟩ ↔
      ∃ d, definition = some d ∧ d.corrupt = some reason
  readable : (st.world.complete ClassPath.resolver id).1 = .ok () ↔
    ∃ d, definition = some d ∧ d.corrupt = none
  /-- Whatever is done next, edits included, changes the class no more. -/
  settled : ∀ ops, ((st.step (.complete id)).run ops).store.symbol? id =
    (st.step (.complete id)).store.symbol? id

theorem Sound.symbol?_run_complete {st : Session} (h : st.Sound) {id : SymbolId} {c : Completer}
    (hp : st.store.completer? id = some c) (ops : List Op) :
    ((st.step (.complete id)).run ops).store.symbol? id =
      (st.step (.complete id)).store.symbol? id := by
  have hphase := World.complete_inPhase h.store.registered h.store.phased hp
  refine ((h.step (.complete id)).extends_run ops).advances.spares.symbol? hphase ?_
  cases (st.world.complete ClassPath.resolver id).1 <;> exact Phase.noConfusion

/-- A class that reads its definition, with nothing to stand in for it, goes by what the class path
says at that moment. -/
theorem Sound.decidedBy {st : Session} (h : st.Sound) {id : SymbolId} {n : Name}
    (hp : st.store.completer? id = some (.classFile n)) :
    st.DecidedBy id n (st.world.path.get? n) := by
  obtain ⟨flat, hc, hreads⟩ := h.store.phased.pending hp not_false
  obtain rfl : n = flat := by cases hreads; rfl
  have hout := (World.complete_completes h.store.registered hp .classFile).outcome_eq
  have hsettled := h.symbol?_run_complete hp
  cases hd : st.world.path.get? n with
  | none =>
    have halone : Completer.outcome st.world.path n id (.classFile n) = .error ⟨id, n, .notFound⟩ := by
      simp [Completer.outcome, hd, Completer.standin?]
    rw [halone] at hout
    exact ⟨hc, by simp [hout], by simp [hout], by simp [hout], hsettled⟩
  | some d =>
    cases hcorrupt : d.corrupt <;> simp only [Completer.outcome, hd, hcorrupt] at hout <;>
      exact ⟨hc, by simp [hout], by simp [hout, hcorrupt], by simp [hout, hcorrupt], hsettled⟩

/-! ## Clones of the class path -/

/-- A turn in a session whose class path has several handles. -/
inductive Turn where
  | clone (i : Nat)
  | use (i : Nat) (op : Op)

/-- The operations of turns that begin with `n` handles. What goes through a handle that is not there
is not done. -/
def Turn.ops : Nat → List Turn → List Op
  | _, [] => []
  | n, .clone i :: turns => ops (if i < n then n + 1 else n) turns
  | n, .use i op :: turns => if i < n then op :: ops n turns else ops n turns

/-- A session and the handles on class paths. The session works on the class path that it is given
through one of them. -/
structure Shared where
  session : Session
  paths : Handles ClassPath

namespace Shared

variable {sh : Shared} {st : Session} {n i : Nat}

def start (st : Session) : Shared := ⟨st, Handles.empty.create st.world.path⟩

/-- The session on the class path that a handle leads to. -/
def through? (sh : Shared) (i : Nat) : Option Session :=
  (sh.paths.behind? i).map fun path =>
    { sh.session with world := { sh.session.world with path } }

def turn (sh : Shared) : Turn → Shared
  | .clone i => { sh with paths := sh.paths.clone i }
  | .use i op =>
    match sh.through? i with
    | some st => ⟨st.step op, sh.paths.modify i fun _ => (st.step op).world.path⟩
    | none => sh

def run (sh : Shared) (turns : List Turn) : Shared := turns.foldl turn sh

/-- All `n` handles lead to the class path of the session. -/
structure Holds (sh : Shared) (st : Session) (n : Nat) : Prop where
  session : sh.session = st
  cells : sh.paths.cells = [st.world.path]
  refs : sh.paths.refs.length = n

theorem holds_start (st : Session) : (start st).Holds st 1 := ⟨rfl, rfl, rfl⟩

theorem Holds.getElem?_refs (h : sh.Holds st n) (hi : i < n) : sh.paths.refs[i]? = some 0 := by
  rw [← h.refs] at hi
  have hcell := sh.paths.linked sh.paths.refs[i] (List.getElem_mem hi)
  rw [h.cells, List.length_singleton, Nat.lt_one_iff] at hcell
  rw [List.getElem?_eq_getElem hi, hcell]

theorem Holds.through? (h : sh.Holds st n) (hi : i < n) : sh.through? i = some st := by
  rw [Shared.through?, Handles.behind?, h.getElem?_refs hi, Option.bind_some, h.cells, h.session]
  rfl

theorem Holds.through?_of_le (h : sh.Holds st n) (hi : n ≤ i) : sh.through? i = none := by
  rw [← h.refs] at hi
  rw [Shared.through?, Handles.behind?, List.getElem?_eq_none hi]
  rfl

theorem Holds.clone (h : sh.Holds st n) (i : Nat) :
    (sh.turn (.clone i)).Holds st (if i < n then n + 1 else n) := by
  refine ⟨h.session, h.cells, ?_⟩
  rw [turn, Handles.clone, List.length_append, h.refs]
  split
  · next hi => rw [h.getElem?_refs hi]; rfl
  · next hi => rw [List.getElem?_eq_none (h.refs ▸ Nat.le_of_not_lt hi)]; rfl

/-- Whichever handle an operation goes through, it is done to the one session. -/
theorem Holds.use (h : sh.Holds st n) (hi : i < n) (op : Op) :
    (sh.turn (.use i op)).Holds (st.step op) n := by
  rw [turn, h.through? hi]
  refine ⟨rfl, ?_, h.refs⟩
  simp [Handles.modify, h.getElem?_refs hi, h.cells]

theorem Holds.run (h : sh.Holds st n) (turns : List Turn) :
    ∃ m, n ≤ m ∧ (sh.run turns).Holds (st.run (Turn.ops n turns)) m := by
  induction turns generalizing sh st n with
  | nil => exact ⟨n, Nat.le_refl n, h⟩
  | cons t turns ih =>
    cases t with
    | clone i =>
      obtain ⟨m, hle, hm⟩ := ih (h.clone i)
      refine ⟨m, Nat.le_trans ?_ hle, hm⟩
      split
      · exact Nat.le_succ n
      · exact Nat.le_refl n
    | use i op =>
      rw [Turn.ops]
      by_cases hi : i < n
      · rw [if_pos hi]
        exact ih (h.use hi op)
      · have hsame : sh.turn (.use i op) = sh := by
          rw [turn, h.through?_of_le (Nat.le_of_not_lt hi)]
        rw [if_neg hi, Shared.run, List.foldl_cons, hsame]
        exact ih h

/-- What is done through the clones of a class path is one run, and every clone leads to where it
ends. -/
theorem through?_run {st st' : Session} {turns : List Turn}
    (h : ((start st).run turns).through? i = some st') : st' = st.run (Turn.ops 1 turns) := by
  obtain ⟨m, -, hm⟩ := (holds_start st).run turns
  by_cases hi : i < m
  · exact Option.some.inj (h.symm.trans (hm.through? hi))
  · rw [hm.through?_of_le (Nat.le_of_not_lt hi)] at h
    cases h

theorem through?_first (st : Session) (turns : List Turn) :
    ((start st).run turns).through? 0 = some (st.run (Turn.ops 1 turns)) := by
  obtain ⟨m, hle, hm⟩ := (holds_start st).run turns
  exact hm.through? hle

end Shared

/-- The definition at the time of the completion decides: after any run through a class path and its
clones, a class that still has the completer it was entered with goes by the last edit of its name,
whichever of them that was made through. -/
theorem completion_decidedBy_last_edit {options : Options} {messages : Messages} {w w' : World}
    {t : Table} (hbuild : Table.build options messages ClassPath.resolver w = (.ok t, w'))
    (turns : List Turn) {i : Nat} {st : Session}
    (hst : ((Shared.start ⟨t, w'⟩).run turns).through? i = some st) {id : SymbolId} {n : Name}
    (hp : st.store.completer? id = some (.classFile n)) :
    st.DecidedBy id n (definitionAfter (w.path.get? n) (Turn.ops 1 turns) n) := by
  obtain rfl := Shared.through?_run hst
  have hpath := Table.path_build options messages w
  rw [hbuild] at hpath
  have hlast := get?_run ⟨t, w'⟩ (Turn.ops 1 turns) n
  rw [hpath] at hlast
  exact hlast ▸ ((Reachable.built hbuild).run _).sound.decidedBy hp

/-- A class of the core library is resolved while nothing defines it. The library comes onto the
class path afterwards, through a clone, and then a definition that cannot be read takes the place of
this one, through a clone of the clone. -/
def replacement : List Turn :=
  [.use 0 (.resolveClass "raven.language.Anything"), .clone 0, .use 1 .defineCore, .clone 1,
    .use 2 (.define "raven.language.Anything" (.unreadable "truncated"))]

/-- The replacement is seen through the first handle. -/
theorem completion_decidedBy_replacement : ∃ (t : Table) (w : World) (id : SymbolId) (st : Session),
    Table.build ⟨true, .v17⟩ Messages.english ClassPath.resolver .empty = (.ok t, w) ∧
      ((Shared.start ⟨t, w⟩).run replacement).through? 0 = some st ∧
      st.store.completer? id = some (.classFile "raven.language.Anything") ∧
        st.DecidedBy id "raven.language.Anything" (some (.unreadable "truncated")) := by
  obtain ⟨t, w, hbuild, hfurnished⟩ :=
    Table.building_furnished ⟨true, .v17⟩ Messages.english .empty
  have hnew : w.store.class? "raven.language.Anything" = none :=
    hfurnished.class?_core rfl (by decide)
  obtain ⟨id, -, hp⟩ := (Reachable.built hbuild).sound.completer?_resolveClass hnew
  have hops : Turn.ops 1 replacement = [.resolveClass "raven.language.Anything", .defineCore,
    .define "raven.language.Anything" (.unreadable "truncated")] := rfl
  have hst := Shared.through?_first ⟨t, w⟩ replacement
  -- the edits that follow leave the store alone
  have hp' : ((Session.mk t w).run (Turn.ops 1 replacement)).store.completer? id =
      some (.classFile "raven.language.Anything") := by
    rw [hops]
    exact (congrArg (·.completer? id) (World.store_defineAll _ _)).trans hp
  have hdecided := completion_decidedBy_last_edit hbuild replacement hst hp'
  have hdefinition : definitionAfter (World.empty.path.get? "raven.language.Anything")
      (Turn.ops 1 replacement) "raven.language.Anything" = some (.unreadable "truncated") := by
    rw [hops]
    rfl
  exact ⟨t, w, id, _, hbuild, hst, hp', hdefinition ▸ hdecided⟩

end Session

end SymbolTable
