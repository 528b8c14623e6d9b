/-
Names and where they divide.

A qualified name is cut at a separator: `.` between a package and what it
holds, `$` between a class and the class that encloses it. Cutting always
happens at the last separator, so the left part is the enclosing name.
-/

namespace SymbolTable

/-- A name is its text. -/
abbrev Name := String

/-- Every part of the text that ends just before a `sep`, shortest first. -/
def partsBefore (sep : Char) : List Char → List (List Char)
  | [] => []
  | c :: rest =>
    let longer := (partsBefore sep rest).map (c :: ·)
    if c = sep then [] :: longer else longer

/-- What follows the last `sep`; the whole text if there is none. -/
def afterLast (sep : Char) : List Char → List Char
  | [] => []
  | c :: rest => if c = sep ∨ sep ∈ rest then afterLast sep rest else c :: rest

namespace Name

/-- The names that enclose `n` when it is cut at `sep` again and again, the innermost first. -/
def enclosing (sep : Char) (n : Name) : List Name :=
  (partsBefore sep n.toList).reverse.map String.ofList

/-- The last component of `n`: what follows the last `sep`. -/
def lastPart (sep : Char) (n : Name) : Name := String.ofList (afterLast sep n.toList)

/-- The source name of a class with flat name `n`: nested classes are written with a dot. -/
def dotted (n : Name) : Name := String.ofList (n.toList.map fun c => if c = '$' then '.' else c)

/-- The package of a top-level class: what precedes the last dot. -/
def packagePart (n : Name) : Name := ((n.enclosing '.').head?).getD ""

/-- The packages around the package `n`, the innermost first; the last is the root, named by the
empty text. -/
def outerPackages (n : Name) : List Name :=
  if n = "" then [] else (n.enclosing '.').filter (fun p => decide (p ≠ "")) ++ [""]

end Name

end SymbolTable
