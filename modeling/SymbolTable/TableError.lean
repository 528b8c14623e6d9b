/-
Errors of building or extending a table. They come from misuse of the table
itself; a class that is missing or broken is a completion failure instead.
-/
import SymbolTable.Ident
import SymbolTable.Tag

namespace SymbolTable

inductive TableError where
  /-- A primitive was registered twice. -/
  | duplicatePrimitive (tag : Tag)
  /-- A primitive was needed before it was registered. -/
  | primitiveNotRegistered (tag : Tag)
  /-- A type was given a second, different declaring symbol. -/
  | symbolAlreadyBound (ty : TypeId) (existing requested : SymbolId)
  /-- A symbol had to be a class. -/
  | notAClass (symbol : SymbolId)
  /-- A type had to be declared by a class. -/
  | notAClassType (ty : TypeId)
  /-- A member was entered where there is no scope. -/
  | missingMemberScope (symbol : SymbolId)
  /-- A primitive has no wrapper class. -/
  | noBoxedForm (tag : Tag)
  deriving DecidableEq, Repr

def TableError.message : TableError → String
  | duplicatePrimitive tag => s!"primitive type `{tag.text}` is already registered"
  | primitiveNotRegistered tag => s!"primitive type `{tag.text}` used before registration"
  | symbolAlreadyBound ty existing requested =>
    s!"type {ty.text} is already owned by {existing.text}, cannot rebind to {requested.text}"
  | notAClass symbol => s!"symbol {symbol.text} is not a class"
  | notAClassType ty => s!"type {ty.text} is not a class type"
  | missingMemberScope symbol => s!"symbol {symbol.text} has no member scope"
  | noBoxedForm tag => s!"primitive type `{tag.text}` has no boxed form"

end SymbolTable
