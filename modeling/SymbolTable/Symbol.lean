/-
Symbols: packages, classes, methods, operators and variables.
-/
import SymbolTable.Completer
import SymbolTable.Opcode
import SymbolTable.Scope
import SymbolTable.Ty

namespace SymbolTable

/-- The placeholder symbols every table carries. -/
inductive Sentinel where
  | root
  | unnamed
  /-- Stands for a missing symbol. -/
  | noSymbol
  /-- Declares the error type. -/
  | error
  /-- Declares the unknown type. -/
  | unknown
  deriving DecidableEq, Repr

namespace Sentinel

def all : List Sentinel := [root, unnamed, noSymbol, error, unknown]

def label : Sentinel → String
  | root => "Root"
  | unnamed => "Unnamed"
  | noSymbol => "NoSymbol"
  | error => "Error"
  | unknown => "Unknown"

def ofLabel? (s : String) : Option Sentinel := all.find? fun t => decide (t.label = s)

end Sentinel

structure PackageInfo where
  fullName : Name
  members : Scope
  /-- What users see in place of an empty name. -/
  displayName : Option String
  deriving DecidableEq

/-- What is known of a class. A class without a completer is complete. -/
structure ClassInfo where
  /-- The name in source text. -/
  fullName : Name
  /-- The name that identifies the class. -/
  flatName : Name
  members : Option Scope
  supertype : Option TypeId
  interfaces : Option (List TypeId)
  typeParams : Option (List TypeId)
  completer : Option Completer
  /-- Why completion failed, once it has. -/
  failure : Option FailureKind
  /-- The class stands for an error. -/
  erroneous : Bool
  deriving DecidableEq

/-- A class of which only the names are known. -/
def ClassInfo.named (fullName flatName : Name) : ClassInfo :=
  { fullName, flatName, members := none, supertype := none, interfaces := none,
    typeParams := none, completer := none, failure := none, erroneous := false }

inductive SymbolKind where
  | nil
  | package
  | cls
  | error
  | method
  | operator
  | var
  deriving DecidableEq, Repr

def SymbolKind.text : SymbolKind → String
  | nil => "Nil"
  | package => "Package"
  | cls => "Class"
  | error => "Error"
  | method => "Method"
  | operator => "Operator"
  | var => "Var"

/-- What sets one kind of symbol apart from the others. -/
inductive SymbolBody where
  | nil
  | package (info : PackageInfo)
  | cls (info : ClassInfo)
  | method
  | operator (code : OperatorCode)
  | var
  deriving DecidableEq

def SymbolBody.kind : SymbolBody → SymbolKind
  | nil => .nil
  | package _ => .package
  | cls info => if info.erroneous then .error else .cls
  | method => .method
  | operator _ => .operator
  | var => .var

structure Symbol where
  modifiers : Modifiers
  /-- The simple name. -/
  name : Name
  /-- The enclosing symbol; only the root package has none. -/
  owner : Option SymbolId
  ty : TypeId
  sentinel : Option Sentinel
  body : SymbolBody
  deriving DecidableEq

namespace Symbol

def kind (s : Symbol) : SymbolKind := s.body.kind

def classInfo? (s : Symbol) : Option ClassInfo :=
  match s.body with
  | .cls info => some info
  | _ => none

def packageInfo? (s : Symbol) : Option PackageInfo :=
  match s.body with
  | .package info => some info
  | _ => none

def operatorCode? (s : Symbol) : Option OperatorCode :=
  match s.body with
  | .operator code => some code
  | _ => none

/-- The member scope of a class or package. -/
def members? (s : Symbol) : Option Scope :=
  match s.body with
  | .cls info => info.members
  | .package info => some info.members
  | _ => none

/-- Changes what is known of a class; any other symbol stays as it is. -/
def mapClass (f : ClassInfo → ClassInfo) (s : Symbol) : Symbol :=
  match s.body with
  | .cls info => { s with body := .cls (f info) }
  | _ => s

/-- Changes the member scope, where there is one. -/
def mapMembers (f : Scope → Scope) (s : Symbol) : Symbol :=
  match s.body with
  | .cls info => { s with body := .cls { info with members := info.members.map f } }
  | .package info => { s with body := .package { info with members := f info.members } }
  | _ => s

/-- The qualified name of a class or package, the simple name of any other symbol. -/
def qualifiedName (s : Symbol) : Name :=
  match s.body with
  | .cls info => info.fullName
  | .package info => info.fullName
  | _ => s.name

end Symbol

end SymbolTable
