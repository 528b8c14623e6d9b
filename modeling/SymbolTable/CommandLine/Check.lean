/-
Completing everything that is pending, and reporting what fails.

The classes are taken by name, so the report does not depend on the order
in which they were registered. A class that is registered while others are
completed is not completed itself.
-/
import SymbolTable.Completion

namespace SymbolTable

namespace Store

/-- The classes among `entries` that are still to be completed, by name. -/
def pending (s : Store) (entries : List (Name × SymbolId)) : List (Name × SymbolId) :=
  (entries.filter fun (_, id) => !s.isCompleted id).mergeSort fun a b => decide (a.1 ≤ b.1)

end Store

namespace World

/-- Completes classes one after the other, and gives those that failed with the reason. -/
def completeAll (r : Resolver) :
    List (Name × SymbolId) → World → List (Name × FailureKind) × World
  | [], w => ([], w)
  | (name, id) :: rest, w =>
    match w.complete r id with
    | (.ok (), w) => completeAll r rest w
    | (.error failure, w) =>
      let (failures, w) := completeAll r rest w
      ((name, failure.kind) :: failures, w)

end World

/-- What a check found. -/
structure CheckReport where
  /-- How many classes were to be completed. -/
  pending : Nat
  failures : List (Name × FailureKind)
  deriving DecidableEq, Repr

/-- Completes the classes among `entries` that are pending. -/
def World.checkEntries (r : Resolver) (entries : List (Name × SymbolId)) (w : World) :
    CheckReport × World :=
  let pending := w.store.pending entries
  let (failures, w) := w.completeAll r pending
  (⟨pending.length, failures⟩, w)

/-- Completes every registered class that is pending. -/
def World.check (r : Resolver) (w : World) : CheckReport × World :=
  w.checkEntries r w.store.classes.entries

namespace CheckReport

def succeeded (c : CheckReport) : Bool := c.failures.isEmpty

/-- The lines for standard output. -/
def lines (c : CheckReport) : List String :=
  [s!"Completing {c.pending} classes", ""]
    ++ if c.succeeded then ["Success: All classes complete"] else []

/-- The lines for standard error. -/
def errorLines (c : CheckReport) : List String :=
  c.failures.map (fun (name, kind) => s!"  ✗ {name}: {kind.message}")
    ++ if c.succeeded then [] else [s!"Failed: {c.failures.length} classes failed to complete"]

end CheckReport

end SymbolTable
