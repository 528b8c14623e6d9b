/-
Tags of types: the primitive kinds and the structural categories.

The numeric kinds come first, narrowest to widest, so the order of two
numeric tags agrees with widening.
-/

namespace SymbolTable

inductive Tag where
  | byte
  | char
  | short
  | int
  | long
  | float
  | double
  | boolean
  | void
  /-- Class or interface type. -/
  | cls
  | array
  | method
  | package
  | typeVar
  | wildcard
  | forAll
  /-- The type of `null`. -/
  | bot
  /-- The absence of a type. -/
  | absent
  | error
  /-- A type that could not be determined. -/
  | unknown
  deriving DecidableEq, Repr

namespace Tag

/-- Every tag, in order. -/
def all : List Tag :=
  [byte, char, short, int, long, float, double, boolean, void, cls, array, method, package,
    typeVar, wildcard, forAll, bot, absent, error, unknown]

theorem mem_all (t : Tag) : t ∈ all := by cases t <;> simp [all]

/-- The tags a table of primitives holds one type for, in the order they are searched. -/
def primitives : List Tag :=
  [void, boolean, byte, short, char, int, long, float, double, bot, error, unknown]

/-- The position of a tag among all tags. -/
def index (t : Tag) : Nat := t.ctorIdx

def isNumeric : Tag → Bool
  | byte | char | short | int | long | float | double => true
  | _ => false

/-- The keyword that names the tag in source text. -/
def keyword? : Tag → Option String
  | byte => some "byte"
  | char => some "char"
  | short => some "short"
  | int => some "int"
  | long => some "long"
  | float => some "float"
  | double => some "double"
  | boolean => some "boolean"
  | void => some "void"
  | _ => none

/-- The tag as users see it: its keyword, or a word of its own. -/
def text : Tag → String
  | byte => "byte"
  | char => "char"
  | short => "short"
  | int => "int"
  | long => "long"
  | float => "float"
  | double => "double"
  | boolean => "boolean"
  | void => "void"
  | cls => "class"
  | array => "array"
  | method => "method"
  | package => "package"
  | typeVar => "typevar"
  | wildcard => "wildcard"
  | forAll => "forall"
  | bot => "<nulltype>"
  | absent => "none"
  | error => "<any>"
  | unknown => "<any?>"

/-- The name of a tag among tags. -/
def label : Tag → String
  | byte => "Byte"
  | char => "Char"
  | short => "Short"
  | int => "Int"
  | long => "Long"
  | float => "Float"
  | double => "Double"
  | boolean => "Boolean"
  | void => "Void"
  | cls => "Class"
  | array => "Array"
  | method => "Method"
  | package => "Package"
  | typeVar => "TypeVar"
  | wildcard => "Wildcard"
  | forAll => "ForAll"
  | bot => "Bot"
  | absent => "None"
  | error => "Error"
  | unknown => "Unknown"

def ofLabel? (s : String) : Option Tag := all.find? fun t => decide (t.label = s)

instance : Ord Tag := ⟨fun a b => compare a.index b.index⟩

end Tag

end SymbolTable
