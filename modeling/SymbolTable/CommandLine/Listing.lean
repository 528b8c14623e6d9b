/-
Listings of the predefined scope.
-/
import SymbolTable.Table
import SymbolTable.Text.Column

namespace SymbolTable

namespace Scope

/-- Every entry with its name, in the order of `toList`. -/
def entered (s : Scope) : List (Name × SymbolId) :=
  s.toList.flatMap fun (name, ids) => ids.map fun id => (name, id)

end Scope

namespace Store

/-- Every operator entered into a class, grouped by name. -/
def allOperators (s : Store) (predef : SymbolId) : List OperatorSignature :=
  match s.members? predef with
  | some scope => scope.entered.filterMap fun (_, id) => s.operatorSignature? id
  | none => []

def kindOf (s : Store) (id : SymbolId) : SymbolKind := ((s.symbol? id).map (·.kind)).getD .nil

def isOperator (s : Store) (id : SymbolId) : Bool := decide (s.kindOf id = .operator)

end Store

namespace CommandLine

open Text

/-- An operator: its name, its type and its code. -/
def operatorLine (s : Store) (o : OperatorSignature) : String :=
  flushRight 6 o.name ++ "  " ++ flushLeft 40 (s.typeText (s.typeOf o.symbol)) ++ " " ++ o.code.text

/-- A symbol: its kind, its name and its type. -/
def symbolLine (s : Store) (name : Name) (id : SymbolId) : String :=
  "  " ++ flushLeft 12 (s.kindOf id).text ++ " " ++ flushLeft 14 name ++ " "
    ++ s.typeText (s.typeOf id)

/-- The operators of a listing: those of one name, or all. -/
def listed (t : Table) (s : Store) : Option Name → List OperatorSignature
  | some name => t.operators s name
  | none => s.allOperators t.predefClass

/-- The lines of an operator listing. -/
def operatorListing (s : Store) (os : List OperatorSignature) : List String :=
  os.map (operatorLine s) ++ ["", s!"Total: {os.length} overloads"]

/-- The lines for the entries of a scope that are not operators. -/
def symbolLines (s : Store) (scope : Scope) : List String :=
  (scope.entered.filter fun (_, id) => !s.isOperator id).map fun (name, id) => symbolLine s name id

/-- The lines of a listing of a scope. Operators are only counted. -/
def predefListing (s : Store) (scope : Scope) : List String :=
  let operators := scope.entered.countP fun (_, id) => s.isOperator id
  symbolLines s scope
    ++ ["", s!"Predef: {scope.size - operators} types, {operators} operators"]

end CommandLine

end SymbolTable
