/-
Member scopes.

A scope maps names to overload sets. Entering never replaces: every symbol
entered under a name stays, in the order of entry. The scope of an erroneous
class accepts entries and answers every lookup with nothing.
-/
import SymbolTable.Ident
import SymbolTable.Name
import SymbolTable.OrderedMap

namespace SymbolTable

inductive ScopeKind where
  /-- Ordinary members. -/
  | members
  /-- Members of an erroneous or placeholder class. -/
  | error
  deriving DecidableEq, Repr

/-- The members of a class or package, grouped by name in the order of first entry. -/
structure Scope where
  owner : SymbolId
  kind : ScopeKind
  groups : OrderedMap Name (List SymbolId)
  deriving DecidableEq

namespace Scope

/-- An empty ordinary scope. -/
def members (owner : SymbolId) : Scope := ⟨owner, .members, .empty⟩

/-- An empty error scope. -/
def erroneous (owner : SymbolId) : Scope := ⟨owner, .error, .empty⟩

def isError (s : Scope) : Bool := decide (s.kind = .error)

/-- Adds `sym` after the symbols already entered under `name`. -/
def enter (s : Scope) (name : Name) (sym : SymbolId) : Scope :=
  { s with groups := s.groups.insert name ((s.groups.get? name).getD [] ++ [sym]) }

/-- The symbols entered under `name`, unless the scope is erroneous. -/
def lookup (s : Scope) (name : Name) : List SymbolId :=
  if s.isError then [] else (s.groups.get? name).getD []

def contains (s : Scope) (name : Name) (sym : SymbolId) : Bool := (s.lookup name).contains sym

/-- All entries by name, whatever the kind of the scope. -/
def toList (s : Scope) : List (Name × List SymbolId) := s.groups.entries

/-- The number of entries, counting each overload. -/
def size (s : Scope) : Nat := s.groups.values.foldl (fun n ids => n + ids.length) 0

def isEmpty (s : Scope) : Bool := s.groups.isEmpty

/-! ## Looking up after an entry -/

@[simp] theorem isError_enter (s : Scope) (name : Name) (sym : SymbolId) :
    (s.enter name sym).isError = s.isError := rfl

theorem lookup_of_isError {s : Scope} (h : s.isError = true) (name : Name) : s.lookup name = [] := by
  simp [lookup, h]

theorem lookup_enter_self {s : Scope} (h : s.isError = false) (name : Name) (sym : SymbolId) :
    (s.enter name sym).lookup name = s.lookup name ++ [sym] := by
  simp only [lookup, isError_enter, h, Bool.false_eq_true, if_false]
  simp [enter]

theorem lookup_enter_other (s : Scope) {name other : Name} (sym : SymbolId) (hne : other ≠ name) :
    (s.enter name sym).lookup other = s.lookup other := by
  simp only [lookup, isError_enter]
  simp only [enter, OrderedMap.get?_insert_other _ _ hne]

end Scope

end SymbolTable
