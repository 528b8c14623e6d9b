/-
Columns of a listing. A width counts characters, and text that is wider
than its column is not cut.
-/

namespace SymbolTable.Text

/-- Against the right edge of a column. -/
def flushRight (width : Nat) (s : String) : String :=
  String.ofList (List.replicate (width - s.length) ' ') ++ s

/-- Against the left edge of a column. -/
def flushLeft (width : Nat) (s : String) : String :=
  s ++ String.ofList (List.replicate (width - s.length) ' ')

end SymbolTable.Text
