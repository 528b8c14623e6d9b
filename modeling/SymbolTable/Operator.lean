/-
Operators: symbols owned by the predefined class and entered among its
members under the operator's source text.

Names are overloaded. An overload is chosen by exact operand types, and the
first one entered wins.
-/
import SymbolTable.World

namespace SymbolTable

/-- An operator as its callers see it. -/
structure OperatorSignature where
  symbol : SymbolId
  name : Name
  params : List TypeId
  result : TypeId
  code : OperatorCode
  deriving DecidableEq, Repr

namespace OperatorSignature

def arity (o : OperatorSignature) : Nat := o.params.length

/-- The operand types are exactly these. -/
def accepts (o : OperatorSignature) (operands : List TypeId) : Bool := decide (o.params = operands)

end OperatorSignature

namespace Store

/-- The signature of an operator symbol. -/
def operatorSignature? (s : Store) (id : SymbolId) : Option OperatorSignature := do
  let symbol ← s.symbol? id
  let code ← symbol.operatorCode?
  let signature ← s.signature? symbol.ty
  some ⟨id, symbol.name, signature.params, signature.result, code⟩

/-- The overloads of `name` among the members of `predef`, in order of entry. -/
def operatorsNamed (s : Store) (predef : SymbolId) (name : Name) : List OperatorSignature :=
  (s.lookupMember predef name).filterMap s.operatorSignature?

/-- The first overload of `name` with exactly these operands. -/
def findOperator? (s : Store) (predef : SymbolId) (name : Name) (operands : List TypeId) :
    Option OperatorSignature :=
  (s.operatorsNamed predef name).find? (·.accepts operands)

end Store

/-- An operator to enter. -/
structure OperatorEntry where
  name : Name
  params : List TypeId
  result : TypeId
  code : OperatorCode
  deriving DecidableEq, Repr

namespace World

/-- Enters an operator into `predef`. If there is no scope to enter it into, the symbol and its type
are left behind unreachable. -/
def enterOperator (predef methodClass : SymbolId) (e : OperatorEntry) (w : World) :
    Except TableError SymbolId × World :=
  let w := w.see e.name
  let (id, store) :=
    w.store.addOperator e.name (.of e.params e.result) e.code predef methodClass
  match store.enterMember predef id with
  | .ok store => (.ok id, { w with store })
  | .error err => (.error err, { w with store })

/-- Enters operators in order, stopping at the first that cannot be entered. -/
def enterOperators (predef methodClass : SymbolId) :
    List OperatorEntry → World → Except TableError (List SymbolId) × World
  | [], w => (.ok [], w)
  | e :: rest, w =>
    match w.enterOperator predef methodClass e with
    | (.error err, w) => (.error err, w)
    | (.ok id, w) =>
      match enterOperators predef methodClass rest w with
      | (.error err, w) => (.error err, w)
      | (.ok ids, w) => (.ok (id :: ids), w)

end World

end SymbolTable
