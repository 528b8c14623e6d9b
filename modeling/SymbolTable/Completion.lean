/-
Completing classes.

A completer is removed from its class before it runs, so it runs at most
once even if it fails. A class that fails keeps the reason. Completing one
class never completes another, unless a step of its completer says so.
-/
import SymbolTable.World

namespace SymbolTable

/-- The outcome of a completion. -/
abbrev Completed := Except CompletionFailure Unit

namespace World

/-- Ends in a failure if an operation of the store was misused. -/
def settle (w : World) (blame : FailureKind → CompletionFailure) :
    Except TableError Store → Completed × World
  | .ok store => (.ok (), { w with store })
  | .error e => (.error (blame (.badClassFile e.message)), w)

/-- Fills a class in as its definition says: modifiers are added, supertypes are replaced, and type
parameters and members are opened unless they are there. -/
def fillIn (w : World) (id : SymbolId) (flat : Name) (modifiers : Modifiers)
    (supertype : Option TypeId) (interfaces : List TypeId) : Completed × World :=
  let store := w.store.update id fun symbol =>
    { symbol with modifiers := symbol.modifiers ∪ modifiers }
  { w with store }.settle (fun kind => ⟨id, flat, kind⟩) <|
    store.updateClass id fun info =>
      { info with
        supertype
        interfaces := some interfaces
        typeParams := some (info.typeParams.getD [])
        members := some (info.members.getD (.members id)) }

/-- Completes a class from the definition the class path has now. -/
def readDefinition (r : Resolver) (flat : Name) (id : SymbolId) (w : World) : Completed × World :=
  match w.path.get? flat with
  | none => (.error ⟨id, flat, .notFound⟩, w)
  | some d =>
    match d.corrupt with
    | some reason => (.error ⟨id, flat, .badClassFile reason⟩, w)
    | none =>
      let (supertypes, w) := r.askTypes d.supertype.toList w
      let (interfaces, w) := r.askTypes d.interfaces w
      w.fillIn id flat d.modifiers supertypes.head? interfaces

end World

namespace Store

/-- Makes a class public and puts it below `object`, with members and without interfaces unless it
has some. -/
def standBelow (s : Store) (id : SymbolId) (object : TypeId) : Except TableError Store :=
  s.updateClass id fun info =>
    { info with
      supertype := some object
      interfaces := some (info.interfaces.getD [])
      members := some (info.members.getD (.members id)) }

def addModifiers (s : Store) (id : SymbolId) (m : Modifiers) : Store :=
  s.update id fun symbol => { symbol with modifiers := symbol.modifiers ∪ m }

/-- Adds a method to a class, also as a member. -/
def declareMethod (s : Store) (modifiers : Modifiers) (name : Name) (signature : Signature)
    (owner methodClass : SymbolId) : Except TableError Store :=
  let (id, s) := s.addMethod modifiers name signature owner methodClass
  s.enterMember owner id

/-- Makes a class the wrapper of a primitive type, with a boxing and an unboxing method. -/
def standAsBox (s : Store) (plan : BoxPlan) (id : SymbolId) : Except TableError Store := do
  let s ← s.standBelow id plan.object
  let s ← s.declareMethod (.ofFlags [.isPublic, .isStatic]) plan.factory
    (.of [plan.primitive] (s.typeOf id)) id plan.methodClass
  s.declareMethod (.single .isPublic) plan.unbox (.of [] plan.primitive) id plan.methodClass

end Store

namespace Completer

/-- Runs a completer on a class. `given` is the failure it recovers from, `nested` completes
another class. -/
def run (r : Resolver) (nested : SymbolId → World → Completed × World) :
    Completer → Option CompletionFailure → SymbolId → World → Completed × World
  | done, _, _, w => (.ok (), w)
  | classFile flat, _, id, w => w.readDefinition r flat id
  | emptyInterface object, given, id, w =>
    let store := w.store.addModifiers id (.ofFlags [.isPublic, .isInterface])
    { w with store }.settle (blame given id w) (store.standBelow id object)
  | box plan, given, id, w =>
    let store := w.store.addModifiers id (.single .isPublic)
    { w with store }.settle (blame given id w) (store.standAsBox plan id)
  | orElse base fallback, _, id, w =>
    match base.run r nested none id w with
    | (.ok (), w) => (.ok (), w)
    | (.error failure, w) =>
      if failure.isNotFound then fallback.run r nested (some failure) id w
      else (.error failure, w)
  | modify m next, given, id, w =>
    next.run r nested given id { w with store := w.store.addModifiers id m }
  | openMembers next, given, id, w =>
    match w.store.resetMembers id with
    | .ok store => next.run r nested given id { w with store }
    | .error _ => next.run r nested given id w
  | request flat next, given, id, w =>
    next.run r nested given id (r.askClass flat (w.see flat)).2
  | complete flat next, given, id, w =>
    let w := w.see flat
    match w.store.class? flat with
    | none => next.run r nested given id w
    | some other =>
      match nested other w with
      | (.ok (), w) => next.run r nested given id w
      | (.error failure, w) => (.error failure, w)
  | install completer next, given, id, w =>
    next.run r nested given id { w with store := w.store.setCompleter id completer }
  | notFound name, _, id, w => (.error ⟨id, name, .notFound⟩, w.see name)
  | badClassFile name reason, _, id, w => (.error ⟨id, name, .badClassFile reason⟩, w.see name)
  | rethrow next, given, id, w =>
    match given with
    | some failure => (.error failure, w)
    | none => next.run r nested none id w
where
  /-- A stand-in that cannot be put in place fails in the name of the failure it recovers from. -/
  blame (given : Option CompletionFailure) (id : SymbolId) (w : World) (kind : FailureKind) :
      CompletionFailure :=
    match given with
    | some failure => { failure with kind }
    | none => ⟨id, w.store.nameOf id, kind⟩

end Completer

namespace World

/-- Completes a class, with at most `depth` completions inside one another. -/
def completeWithin (r : Resolver) : Nat → SymbolId → World → Completed × World
  | 0 => fun _ w => (.ok (), w)
  | depth + 1 => fun id w =>
    match w.store.completer? id with
    | none => (.ok (), w)
    | some completer =>
      match completer.run r (completeWithin r depth) none id
          { w with store := w.store.dropCompleter id } with
      | (.ok (), w) => (.ok (), w)
      | (.error failure, w) =>
        (.error failure, { w with store := w.store.recordFailure id failure.kind })

/-- Completes a class if that is still pending. Completions are nested no deeper than the pending
completers ask for. -/
def complete (r : Resolver) (id : SymbolId) (w : World) : Completed × World :=
  completeWithin r (w.store.demands + 1) id w

/-- Runs the completer of `source` on another symbol, recording no failure; nothing happens if
there is none. -/
def completeFrom (r : Resolver) (source target : SymbolId) (w : World) :
    Option Completed × World :=
  match w.store.completer? source with
  | none => (none, w)
  | some completer =>
    let depth := w.store.demands
    let (outcome, w) := completer.run r (completeWithin r depth) none target
      { w with store := w.store.dropCompleter source }
    (some outcome, w)

end World

end SymbolTable
