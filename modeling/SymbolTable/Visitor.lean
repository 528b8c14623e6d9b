/-
Traversing types.

A visitor says what to do at each kind of type. A method type is visited
after its parameters, in order, and its result; thrown types are not
visited. The unknown and the error type are told apart by tag, whatever
their form.

A signature mentions only types that existed when it was made, so types
nest no deeper than their identity.
-/
import SymbolTable.Store

namespace SymbolTable

/-- What to do at each kind of type, over a state `σ`. What is left out is done by `other`. -/
structure Visitor (σ α : Type) where
  other : TypeId → σ → α × σ
  primitive : Tag → TypeId → σ → α × σ := fun _ => other
  cls : TypeId → σ → α × σ := other
  error : TypeId → σ → α × σ := other
  unknown : TypeId → σ → α × σ := other
  package : TypeId → σ → α × σ := other
  absent : TypeId → σ → α × σ := other
  /-- At a method type, given what its parameters and its result gave. -/
  method : List α → α → TypeId → σ → α × σ := fun _ _ => other

namespace Visitor

variable {σ α : Type}

/-- Visits several types in order. -/
def visitAll (visit : TypeId → σ → α × σ) : List TypeId → σ → List α × σ
  | [], st => ([], st)
  | ty :: rest, st =>
    let (a, st) := visit ty st
    let (as, st) := visitAll visit rest st
    (a :: as, st)

/-- Visits a type whose signatures nest at most `depth` deep. -/
def visitWithin (v : Visitor σ α) (s : Store) : Nat → TypeId → σ → α × σ
  | 0 => v.other
  | depth + 1 => fun ty st =>
    match s.type? ty with
    | none => v.other ty st
    | some t =>
      match t.tag, t.form with
      | .unknown, _ => v.unknown ty st
      | .error, _ => v.error ty st
      | _, .method signature =>
        let (params, st) := visitAll (visitWithin v s depth) signature.params st
        let (result, st) := visitWithin v s depth signature.result st
        v.method params result ty st
      | _, .cls => v.cls ty st
      | _, .package => v.package ty st
      | _, .absent => v.absent ty st
      | tag, _ => v.primitive tag ty st

/-- Visits a type. -/
def visit (v : Visitor σ α) (s : Store) (ty : TypeId) : σ → α × σ :=
  v.visitWithin s (ty.index + 1) ty

end Visitor

end SymbolTable
