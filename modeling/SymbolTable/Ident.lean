/-
Identities of symbols and types: positions in the two arenas of a store,
counted from zero in the order of allocation.
-/

namespace SymbolTable

structure SymbolId where
  index : Nat
  deriving DecidableEq, Repr

structure TypeId where
  index : Nat
  deriving DecidableEq, Repr

/-- The text of a symbol's identity in messages. -/
def SymbolId.text (s : SymbolId) : String := s!"Idx::<Symbol>({s.index})"

/-- The text of a type's identity in messages. -/
def TypeId.text (t : TypeId) : String := s!"Idx::<Type>({t.index})"

/-- The absent type is the first type of every store. -/
def TypeId.absent : TypeId := ⟨0⟩

end SymbolTable
