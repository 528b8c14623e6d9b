/-
Texts shown to users, by key.
-/

namespace SymbolTable

/-- A text for every message key. -/
abbrev Messages := String → String

/-- The key of the text shown for the unnamed package. -/
def unnamedPackageKey : String := "compiler.misc.unnamed.package"

/-- English; a key without a text stands for itself. -/
def Messages.english : Messages := fun key =>
  if key = unnamedPackageKey then "unnamed package" else key

end SymbolTable
