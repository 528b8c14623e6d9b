/-
What completing a class does to a store.

A class that resolution entered reads its definition, with any number of
stand-ins behind that. Such a completer asks for other classes and completes
none of them, so a completion ends in one of four ways; `Completes` lists
them with the store each leaves, and `complete_completes` says that there
are no others.
-/
import SymbolTable.Proofs.Entering

namespace SymbolTable

namespace Completer

/-- Makes a class up in place of reading it. -/
inductive IsStandin : Completer → Prop
  | emptyInterface (object : TypeId) : IsStandin (.emptyInterface object)
  | box (plan : BoxPlan) : IsStandin (.box plan)

/-- Reads the definition of `flat`, with stand-ins behind that. -/
inductive Reads (flat : Name) : Completer → Prop
  | classFile : Reads flat (.classFile flat)
  | orElse {base fallback : Completer} (reads : Reads flat base) (standin : IsStandin fallback) :
      Reads flat (.orElse base fallback)

/-- The stand-in that takes effect if there is no definition: the one put behind it first. -/
def standin? : Completer → Option Completer
  | orElse base fallback => some (base.standin?.getD fallback)
  | _ => none

theorem Reads.isStandin {flat : Name} {c f : Completer} (h : c.Reads flat)
    (hf : c.standin? = some f) : f.IsStandin := by
  induction h generalizing f with
  | classFile => simp [standin?] at hf
  | @orElse base fallback _ standin ih =>
    obtain rfl : base.standin?.getD fallback = f := by simpa [standin?] using hf
    cases hb : base.standin? with
    | none => exact standin
    | some g => exact ih hb

end Completer

namespace Store

variable {s s' : Store} {id : SymbolId} {info : ClassInfo}

/-! ## The stores that a completion makes -/

/-- The class below `object`, with members. -/
def below (s : Store) (id : SymbolId) (object : TypeId) : Store :=
  s.update id (Symbol.mapClass fun info =>
    { info with
      supertype := some object
      interfaces := some (info.interfaces.getD [])
      members := some (info.members.getD (.members id)) })

/-- The store with a method more that is a member of `owner`. -/
def withMethod (s : Store) (modifiers : Modifiers) (name : Name) (signature : Signature)
    (owner methodClass : SymbolId) : Store :=
  (s.addMethod modifiers name signature owner methodClass).2.update owner
    (Symbol.mapMembers fun scope => scope.enter name s.nextSymbol)

/-- The class with the methods of a wrapper. -/
def withBoxing (s : Store) (id : SymbolId) (plan : BoxPlan) : Store :=
  (s.withMethod (.ofFlags [.isPublic, .isStatic]) plan.factory
      (.of [plan.primitive] (s.typeOf id)) id plan.methodClass).withMethod
    (.single .isPublic) plan.unbox (.of [] plan.primitive) id plan.methodClass

/-- The class as a stand-in makes it. -/
def standIn (s : Store) (id : SymbolId) : Completer → Store
  | .emptyInterface object =>
    (s.addModifiers id (.ofFlags [.isPublic, .isInterface])).below id object
  | .box plan => ((s.addModifiers id (.single .isPublic)).below id plan.object).withBoxing id plan
  | _ => s

/-- The class as its definition says. -/
def filled (s : Store) (id : SymbolId) (modifiers : Modifiers) (supertype : Option TypeId)
    (interfaces : List TypeId) : Store :=
  (s.addModifiers id modifiers).update id (Symbol.mapClass fun info =>
    { info with
      supertype
      interfaces := some interfaces
      typeParams := some (info.typeParams.getD [])
      members := some (info.members.getD (.members id)) })

theorem keeps_addModifiers (s : Store) (id : SymbolId) (m : Modifiers) :
    s.Keeps (s.addModifiers id m) := keeps_update s id fun _ _ => rfl

theorem symbol?_addModifiers {sym : Symbol} (hs : s.symbol? id = some sym) (m : Modifiers) :
    (s.addModifiers id m).symbol? id = some { sym with modifiers := sym.modifiers ∪ m } := by
  rw [addModifiers, symbol?_update_self, hs, Option.map_some]

theorem keeps_below (s : Store) (id : SymbolId) (object : TypeId) : s.Keeps (s.below id object) :=
  keeps_mapClass s id (by simp)

theorem keeps_withMethod (s : Store) (modifiers : Modifiers) (name : Name) (signature : Signature)
    (owner methodClass : SymbolId) :
    s.Keeps (s.withMethod modifiers name signature owner methodClass) :=
  (s.keeps_extend _ _).trans (keeps_mapMembers _ _ _)

theorem keeps_filled (s : Store) (id : SymbolId) (modifiers : Modifiers)
    (supertype : Option TypeId) (interfaces : List TypeId) :
    s.Keeps (s.filled id modifiers supertype interfaces) :=
  (s.keeps_addModifiers id modifiers).trans (keeps_mapClass _ id (by simp))

theorem keeps_standIn (s : Store) (id : SymbolId) (f : Completer) : s.Keeps (s.standIn id f) := by
  cases f with
  | emptyInterface object => exact (s.keeps_addModifiers id _).trans (keeps_below _ id object)
  | box plan =>
    exact ((s.keeps_addModifiers id _).trans (keeps_below _ id plan.object)).trans
      ((keeps_withMethod ..).trans (keeps_withMethod ..))
  | _ => exact .refl s

theorem maps_withMethod (s : Store) (modifiers : Modifiers) (name : Name) (signature : Signature)
    (owner methodClass : SymbolId) :
    (s.withMethod modifiers name signature owner methodClass).classes = s.classes ∧
      (s.withMethod modifiers name signature owner methodClass).packages = s.packages := ⟨rfl, rfl⟩

/-- A stand-in registers nothing. -/
theorem maps_standIn (s : Store) (id : SymbolId) (f : Completer) :
    (s.standIn id f).classes = s.classes ∧ (s.standIn id f).packages = s.packages := by
  have hbelow : ∀ m object, ((s.addModifiers id m).below id object).classes = s.classes ∧
      ((s.addModifiers id m).below id object).packages = s.packages := fun _ _ => ⟨rfl, rfl⟩
  cases f with
  | emptyInterface object => exact hbelow _ object
  | box plan =>
    simp only [standIn, withBoxing, maps_withMethod]
    exact hbelow _ plan.object
  | _ => exact ⟨rfl, rfl⟩

/-! ## Reading a class after a change -/

theorem classInfo?_addModifiers (s : Store) (id : SymbolId) (m : Modifiers) (x : SymbolId) :
    (s.addModifiers id m).classInfo? x = s.classInfo? x := by
  simp only [classInfo?, addModifiers, symbol?_update]
  split
  · cases s.symbol? x <;> rfl
  · rfl

theorem classInfo?_mapClass (h : s.classInfo? id = some info) (f : ClassInfo → ClassInfo) :
    (s.update id (Symbol.mapClass f)).classInfo? id = some (f info) := by
  obtain ⟨sym, hs, hb⟩ := classInfo?_eq_some.1 h
  simp [classInfo?, symbol?_update, hs, Symbol.mapClass, hb, Symbol.classInfo?]

/-- A pending class is still a class once its completer is gone. -/
theorem classInfo?_dropCompleter {c : Completer} (h : s.completer? id = some c) :
    ∃ info, (s.dropCompleter id).classInfo? id = some info := by
  obtain ⟨info, hinfo, -⟩ := Option.bind_eq_some_iff.1 h
  exact ⟨_, classInfo?_mapClass hinfo _⟩

theorem members?_of_classInfo? (h : s.classInfo? id = some info) : s.members? id = info.members := by
  obtain ⟨sym, hs, hb⟩ := classInfo?_eq_some.1 h
  simp [members?, hs, Symbol.members?, hb]

theorem standBelow_eq (h : s.classInfo? id = some info) (object : TypeId) :
    s.standBelow id object = .ok (s.below id object) := updateClass_eq h _

theorem declareMethod_eq {owner : SymbolId} {sc : Scope} (h : s.members? owner = some sc)
    (modifiers : Modifiers) (name : Name) (signature : Signature) (methodClass : SymbolId) :
    s.declareMethod modifiers name signature owner methodClass =
      .ok (s.withMethod modifiers name signature owner methodClass) := by
  obtain ⟨sym, hs, hm⟩ := Option.bind_eq_some_iff.1 h
  have hold := (hasSymbol_of_symbol? hs).ne_next
  simp only [declareMethod, withMethod, addMethod_eq, enterMember]
  simp [members?, nameOf, symbol?_extend, hold, hs, hm]

/-- A method is added to a class that has members, and the class has members still. -/
theorem members?_withMethod {owner : SymbolId} {sc : Scope} (h : s.members? owner = some sc)
    (modifiers : Modifiers) (name : Name) (signature : Signature) (methodClass : SymbolId) :
    (s.withMethod modifiers name signature owner methodClass).members? owner =
      some (sc.enter name s.nextSymbol) := by
  obtain ⟨sym, hs, -⟩ := Option.bind_eq_some_iff.1 h
  refine members?_enter ?_ name s.nextSymbol
  rw [addMethod_eq, members?, symbol?_extend_old (hasSymbol_of_symbol? hs)]
  exact h

theorem members?_below (h : s.classInfo? id = some info) (object : TypeId) :
    (s.below id object).members? id = some (info.members.getD (.members id)) :=
  members?_of_classInfo? (classInfo?_mapClass h _)

theorem standAsBox_eq (h : s.classInfo? id = some info) (plan : BoxPlan) :
    s.standAsBox plan id = .ok ((s.below id plan.object).withBoxing id plan) := by
  have hm := members?_below h plan.object
  simp only [standAsBox, standBelow_eq h, bind, Except.bind]
  rw [declareMethod_eq hm]
  exact declareMethod_eq (members?_withMethod hm _ _ _ _) _ _ _ _

end Store

/-! ## Running a completer -/

namespace Completer

variable {w : World} {id : SymbolId} {info : ClassInfo} {flat : Name}

theorem IsStandin.run {f : Completer} (h : f.IsStandin) (hc : w.store.classInfo? id = some info)
    (r : Resolver) (nested : SymbolId → World → Completed × World)
    (given : Option CompletionFailure) :
    f.run r nested given id w = (.ok (), { w with store := w.store.standIn id f }) := by
  cases h with
  | emptyInterface object =>
    have hc' := (w.store.classInfo?_addModifiers id (.ofFlags [.isPublic, .isInterface]) id).trans hc
    simp only [Completer.run, World.settle, Store.standBelow_eq hc', Store.standIn]
  | box plan =>
    have hc' := (w.store.classInfo?_addModifiers id (.single .isPublic) id).trans hc
    simp only [Completer.run, World.settle, Store.standAsBox_eq hc', Store.standIn]

/-- A definition that is there is never reported as missing. -/
theorem readDefinition_found {d : ClassDef} (hd : w.path.get? flat = some d) (r : Resolver)
    {failure : CompletionFailure} (hf : (w.readDefinition r flat id).1 = .error failure) :
    failure.isNotFound = false := by
  have settled : ∀ (w : World) (e : Except TableError Store) (failure : CompletionFailure),
      (w.settle (fun kind => ⟨id, flat, kind⟩) e).1 = .error failure → failure.isNotFound = false := by
    intro w e failure h
    cases e with
    | ok _ => simp [World.settle] at h
    | error e =>
      obtain rfl := Except.error.inj h
      simp [CompletionFailure.isNotFound]
  simp only [World.readDefinition, hd] at hf
  cases hd' : d.corrupt with
  | some reason =>
    simp only [hd', Except.error.injEq] at hf
    subst hf
    simp [CompletionFailure.isNotFound]
  | none =>
    simp only [hd'] at hf
    exact settled _ _ _ hf

/-- A class is read from its definition, and made up if it has none and something stands in. -/
theorem Reads.run {c : Completer} (h : c.Reads flat) (hc : w.store.classInfo? id = some info)
    (r : Resolver) (nested : SymbolId → World → Completed × World)
    (given : Option CompletionFailure) :
    c.run r nested given id w =
      match w.path.get? flat, c.standin? with
      | none, some f => (.ok (), { w with store := w.store.standIn id f })
      | _, _ => w.readDefinition r flat id := by
  induction h generalizing given with
  | classFile => cases w.path.get? flat <;> rfl
  | @orElse base fallback _ standin ih =>
    simp only [Completer.run, ih, standin?]
    cases hp : w.path.get? flat with
    | none =>
      cases base.standin? with
      | some f => rfl
      | none =>
        have hread : w.readDefinition r flat id = (.error ⟨id, flat, .notFound⟩, w) := by
          simp [World.readDefinition, hp]
        simp only [hread, CompletionFailure.isNotFound, decide_true, if_true, Option.getD_none]
        exact standin.run hc r nested _
    | some d =>
      simp only
      rcases hread : w.readDefinition r flat id with ⟨failure | _, w'⟩
      · simp [readDefinition_found hp r (congrArg Prod.fst hread)]
      · rfl

end Completer

/-! ## Completing -/

/-- How the completion of a pending class ends: `s` is the store without the class's completer, and
the outcome comes with the store it leaves. -/
inductive Store.Completes (path : ClassPath) (flat : Name) (id : SymbolId) (c : Completer)
    (s : Store) : Completed → Store → Prop
  | read {d : ClassDef} {s' : Store} {supertype : Option TypeId} {interfaces : List TypeId}
      (found : path.get? flat = some d) (readable : d.corrupt = none)
      (asked : s.Asked ((d.supertype.toList ++ d.interfaces).map .cls) s')
      (above : List.Forall₂ s'.ClassType d.supertype.toList supertype.toList)
      (beside : List.Forall₂ s'.ClassType d.interfaces interfaces) :
      Completes path flat id c s (.ok ()) (s'.filled id d.modifiers supertype interfaces)
  | stoodFor {f : Completer} (missing : path.get? flat = none) (standin : c.standin? = some f) :
      Completes path flat id c s (.ok ()) (s.standIn id f)
  | corrupt {d : ClassDef} {reason : String} (found : path.get? flat = some d)
      (unreadable : d.corrupt = some reason) :
      Completes path flat id c s (.error ⟨id, flat, .badClassFile reason⟩)
        (s.recordFailure id (.badClassFile reason))
  | missing (missing : path.get? flat = none) (alone : c.standin? = none) :
      Completes path flat id c s (.error ⟨id, flat, .notFound⟩) (s.recordFailure id .notFound)

namespace Store.Completes

variable {s s' : Store} {path : ClassPath} {flat : Name} {id : SymbolId} {c : Completer}
  {o : Completed}

theorem keeps (h : s.Completes path flat id c o s') : s.Keeps s' := by
  cases h with
  | read _ _ asked _ _ => exact asked.entering.keeps.trans (keeps_filled ..)
  | stoodFor _ _ => exact keeps_standIn ..
  | corrupt _ _ => exact keeps_recordFailure ..
  | missing _ _ => exact keeps_recordFailure ..

theorem registered (h : s.Completes path flat id c o s') (hreg : s.Registered) : s'.Registered := by
  cases h with
  | read _ _ asked _ _ => exact (hreg.entering asked.entering).of_maps (keeps_filled ..) rfl rfl
  | @stoodFor f _ _ =>
    exact hreg.of_maps (keeps_standIn ..) (s.maps_standIn id f).1 (s.maps_standIn id f).2
  | corrupt _ _ => exact hreg.of_maps (keeps_recordFailure ..) rfl rfl
  | missing _ _ => exact hreg.of_maps (keeps_recordFailure ..) rfl rfl

end Store.Completes

namespace World

open Store

variable {w : World} {id : SymbolId} {c : Completer} {info : ClassInfo} {flat : Name}

theorem complete_of_done (h : w.store.completer? id = none) (r : Resolver) :
    w.complete r id = (.ok (), w) := by
  simp [complete, completeWithin, h]

theorem complete_of_pending (h : w.store.completer? id = some c) (r : Resolver) :
    ∃ nested, w.complete r id =
      match c.run r nested none id { w with store := w.store.dropCompleter id } with
      | (.ok (), w) => (.ok (), w)
      | (.error failure, w) =>
        (.error failure, { w with store := w.store.recordFailure id failure.kind }) := by
  refine ⟨completeWithin r w.store.demands, ?_⟩
  rw [complete, completeWithin]
  beta_reduce
  split
  · next hnone => exact absurd (h.symm.trans hnone) (Option.some_ne_none c)
  · next c' hc =>
    obtain rfl := Option.some.inj (h.symm.trans hc)
    rfl

theorem fillIn_eq (h : w.store.classInfo? id = some info) (flat : Name) (modifiers : Modifiers)
    (supertype : Option TypeId) (interfaces : List TypeId) :
    w.fillIn id flat modifiers supertype interfaces =
      (.ok (), { w with store := w.store.filled id modifiers supertype interfaces }) := by
  have h' := (w.store.classInfo?_addModifiers id modifiers id).trans h
  simp only [addModifiers] at h'
  simp only [fillIn, settle, updateClass_eq h', filled, addModifiers]

/-- A definition names at most one superclass, so nothing is lost by taking the first type. -/
theorem forall₂_head? {R : Name → TypeId → Prop} {o : Option Name} {tys : List TypeId}
    (h : List.Forall₂ R o.toList tys) : List.Forall₂ R o.toList tys.head?.toList := by
  cases o with
  | none => cases h; exact .nil
  | some name =>
    obtain _ | ⟨hty, hnil⟩ := h
    cases hnil
    exact .cons hty .nil

/-- A readable definition is read after its supertypes are entered. -/
theorem readDefinition_read {d : ClassDef} (hreg : w.store.Registered)
    (hc : w.store.classInfo? id = some info) (hd : w.path.get? flat = some d)
    (hread : d.corrupt = none) :
    (w.readDefinition ClassPath.resolver flat id).1 = .ok () ∧
      w.store.Completes w.path flat id c (.ok ())
        (w.readDefinition ClassPath.resolver flat id).2.store := by
  simp only [readDefinition, hd, hread]
  obtain ⟨ha₁, hsup⟩ := ClassPath.askTypes_asked d.supertype.toList hreg
  generalize ClassPath.resolver.askTypes d.supertype.toList w = r₁ at ha₁ hsup ⊢
  obtain ⟨supertypes, w₁⟩ := r₁
  have hreg₁ := hreg.entering ha₁.entering
  obtain ⟨ha₂, hint⟩ := ClassPath.askTypes_asked d.interfaces hreg₁
  generalize ClassPath.resolver.askTypes d.interfaces w₁ = r₂ at ha₂ hint ⊢
  obtain ⟨interfaces, w₂⟩ := r₂
  have ha : w.store.Asked ((d.supertype.toList ++ d.interfaces).map .cls) w₂.store := by
    rw [List.map_append]
    exact ha₁.append ha₂
  simp only [fillIn_eq (ha.entering.classInfo? hreg hc)]
  have hsup' := hsup.imp fun _ _ h => ha₂.entering.keeps.classType h
  exact ⟨trivial, .read hd hread ha (forall₂_head? hsup') hint⟩

/-- The completion of a class that reads its definition ends in one of the four ways. -/
theorem complete_completes (hreg : w.store.Registered) (hp : w.store.completer? id = some c)
    (hr : c.Reads flat) :
    (w.store.dropCompleter id).Completes w.path flat id c (w.complete ClassPath.resolver id).1
      (w.complete ClassPath.resolver id).2.store := by
  obtain ⟨info, hc⟩ := classInfo?_dropCompleter hp
  have hreg' := hreg.of_maps (keeps_dropCompleter _ id) rfl rfl
  obtain ⟨nested, hw⟩ := complete_of_pending hp ClassPath.resolver
  rw [hw, hr.run (w := { w with store := w.store.dropCompleter id }) hc]
  cases hd : w.path.get? flat with
  | none =>
    cases hf : c.standin? with
    | some f => exact .stoodFor hd hf
    | none =>
      simp only [readDefinition, hd]
      exact .missing hd hf
  | some d =>
    cases hread : d.corrupt with
    | some reason =>
      simp only [readDefinition, hd, hread]
      exact .corrupt hd hread
    | none =>
      obtain ⟨hok, hcompletes⟩ := readDefinition_read
        (w := { w with store := w.store.dropCompleter id }) (c := c) hreg' hc hd hread
      simp only
      generalize readDefinition ClassPath.resolver flat id
        { w with store := w.store.dropCompleter id } = r at hok hcompletes ⊢
      obtain ⟨outcome, w'⟩ := r
      subst hok
      exact hcompletes

end World

end SymbolTable
