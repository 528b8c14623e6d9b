/-
Types as text: `int`, `java.lang.String`, `(int,long)int`.
-/
import SymbolTable.Visitor

namespace SymbolTable

namespace Store

/-- A type by the name of its declaring symbol, or by its tag if it has none. -/
def declaredText (s : Store) (ty : TypeId) : String :=
  match (s.declaring? ty).bind s.symbol? with
  | some symbol => symbol.qualifiedName
  | none => ((s.type? ty).map (·.tag.text)).getD ""

/-- Writes types: primitives by tag, methods as parameters and result, all else by name. -/
def typeWriter (s : Store) : Visitor Unit String where
  other ty st := (s.declaredText ty, st)
  primitive tag _ st := (tag.text, st)
  unknown _ st := (Tag.unknown.text, st)
  error _ st := (Tag.error.text, st)
  method params result _ st := ("(" ++ ",".intercalate params ++ ")" ++ result, st)

/-- The text of a type. -/
def typeText (s : Store) (ty : TypeId) : String := (s.typeWriter.visit s ty ()).1

end Store

end SymbolTable
