/-
Types.

A type is what it is (its form) and the symbol that declares it. The form
never changes; the symbol is assigned at most once.
-/
import SymbolTable.Ident
import SymbolTable.Tag

namespace SymbolTable

/-- The signature of a method or operator. -/
structure Signature where
  params : List TypeId
  result : TypeId
  thrown : List TypeId
  deriving DecidableEq, Repr

/-- A signature that throws nothing. -/
def Signature.of (params : List TypeId) (result : TypeId) : Signature := ⟨params, result, []⟩

inductive TyForm where
  /-- Stored like a primitive: the numeric kinds, `boolean`, `void`, the null type, the unknown type. -/
  | primitive (tag : Tag)
  /-- Class, interface or pseudo-class; the structure is on the symbol. -/
  | cls
  /-- Stands for a type that failed, if one was known. -/
  | error (failed : Option TypeId)
  | method (signature : Signature)
  | package
  /-- No type at all. -/
  | absent
  deriving DecidableEq, Repr

def TyForm.tag : TyForm → Tag
  | primitive tag => tag
  | cls => .cls
  | error _ => .error
  | method _ => .method
  | package => .package
  | absent => .absent

structure Ty where
  form : TyForm
  /-- The declaring symbol, once assigned. -/
  symbol : Option SymbolId
  deriving DecidableEq, Repr

def Ty.tag (t : Ty) : Tag := t.form.tag

/-- The absent type. -/
def Ty.absent : Ty := ⟨.absent, none⟩

end SymbolTable
