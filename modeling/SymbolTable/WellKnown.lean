/-
Names the table refers to by themselves.
-/
import SymbolTable.NameTable

namespace SymbolTable

/-- A name with a role in the table. -/
inductive WellKnown where
  /-- The root package, the unnamed package and the predefined class. -/
  | empty
  /-- The error class. -/
  | any
  /-- The unknown class. -/
  | unknownAny
  | array
  | bound
  | method
  /-- Constructors. -/
  | init
  /-- Boxing factories. -/
  | valueOf
  | length
  | clone
  | close
  | finalize
  deriving DecidableEq, Repr

namespace WellKnown

/-- Every well-known name, in the order in which they are seen. -/
def all : List WellKnown :=
  [empty, any, unknownAny, array, bound, method, init, valueOf, length, clone, close, finalize]

def text : WellKnown → Name
  | empty => ""
  | any => "<any>"
  | unknownAny => "<any?>"
  | array => "Array"
  | bound => "Bound"
  | method => "Method"
  | init => "<init>"
  | valueOf => "valueOf"
  | length => "length"
  | clone => "clone"
  | close => "close"
  | finalize => "finalize"

/-- The role as it is shown. -/
def label : WellKnown → String
  | empty => "empty"
  | any => "any"
  | unknownAny => "unknown_any"
  | array => "array"
  | bound => "bound"
  | method => "method"
  | init => "init"
  | valueOf => "value_of"
  | length => "length"
  | clone => "clone"
  | close => "close"
  | finalize => "finalize"

def texts : List Name := all.map text

/-- The roles with the keys their names have in a table. -/
def describe (t : NameTable) : String :=
  let parts := all.map fun n => n.label ++ ": " ++ ((t.key? n.text).map Key.text).getD ""
  "Names \x7b " ++ ", ".intercalate parts ++ " \x7d"

end WellKnown

/-- What follows a primitive's name in the name of its unboxing method. -/
def unboxSuffix : String := "Value"

end SymbolTable
