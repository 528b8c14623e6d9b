/-
The store: the symbols and types of one compilation, and the maps from
names to classes and packages.

Both arenas only grow, and an identity is a position in one of them. An
operation on a symbol that the store does not hold changes nothing.
-/
import SymbolTable.Symbol
import SymbolTable.TableError

namespace SymbolTable

structure Store where
  symbols : Array Symbol
  types : Array Ty
  /-- Classes by flat name. -/
  classes : OrderedMap Name SymbolId
  /-- Packages by full name. -/
  packages : OrderedMap Name SymbolId
  deriving DecidableEq

namespace Store

/-- No symbols, and the absent type alone. -/
def empty : Store := ⟨#[], #[Ty.absent], .empty, .empty⟩

def symbol? (s : Store) (id : SymbolId) : Option Symbol := s.symbols[id.index]?

def type? (s : Store) (id : TypeId) : Option Ty := s.types[id.index]?

def nextSymbol (s : Store) : SymbolId := ⟨s.symbols.size⟩

def nextType (s : Store) : TypeId := ⟨s.types.size⟩

def class? (s : Store) (flat : Name) : Option SymbolId := s.classes.get? flat

def package? (s : Store) (full : Name) : Option SymbolId := s.packages.get? full

def insertClass (s : Store) (flat : Name) (id : SymbolId) : Store :=
  { s with classes := s.classes.insert flat id }

def insertPackage (s : Store) (full : Name) (id : SymbolId) : Store :=
  { s with packages := s.packages.insert full id }

/-- Changes one symbol. -/
def update (s : Store) (id : SymbolId) (f : Symbol → Symbol) : Store :=
  { s with symbols := s.symbols.modify id.index f }

theorem symbol?_update_self (s : Store) (id : SymbolId) (f : Symbol → Symbol) :
    (s.update id f).symbol? id = (s.symbol? id).map f := by
  simp [symbol?, update, Array.getElem?_modify]

theorem symbol?_update_other (s : Store) {id other : SymbolId} (f : Symbol → Symbol)
    (hne : other ≠ id) : (s.update id f).symbol? other = s.symbol? other := by
  have h : id.index ≠ other.index := fun e => hne (by cases id; cases other; simp_all)
  simp [symbol?, update, Array.getElem?_modify, h]

/-! ## Types -/

def addType (s : Store) (t : Ty) : TypeId × Store :=
  (s.nextType, { s with types := s.types.push t })

@[simp] theorem type?_addType_self (s : Store) (t : Ty) :
    (s.addType t).2.type? (s.addType t).1 = some t := by
  simp [type?, addType, nextType]

theorem type?_addType_old {s : Store} {id : TypeId} {old : Ty} (h : s.type? id = some old) (t : Ty) :
    (s.addType t).2.type? id = some old := by
  obtain ⟨hlt, _⟩ := Array.getElem?_eq_some_iff.1 h
  simp only [type?, addType, Array.getElem?_push_lt hlt]
  simpa [type?, Array.getElem?_eq_getElem hlt] using h

/-- A type stored like a primitive, with no declaring symbol yet. -/
def addPrimitive (s : Store) (tag : Tag) : TypeId × Store := s.addType ⟨.primitive tag, none⟩

def addClassType (s : Store) (symbol : SymbolId) : TypeId × Store := s.addType ⟨.cls, some symbol⟩

def addPackageType (s : Store) (symbol : SymbolId) : TypeId × Store :=
  s.addType ⟨.package, some symbol⟩

def addErrorType (s : Store) (symbol : SymbolId) (failed : Option TypeId) : TypeId × Store :=
  s.addType ⟨.error failed, some symbol⟩

/-- Every method type belongs to the method pseudo-class. -/
def addMethodType (s : Store) (signature : Signature) (methodClass : SymbolId) : TypeId × Store :=
  s.addType ⟨.method signature, some methodClass⟩

/-- The declaring symbol of a type. -/
def declaring? (s : Store) (ty : TypeId) : Option SymbolId := (s.type? ty).bind (·.symbol)

/-- Assigns the declaring symbol of a type. Assigning the same symbol again is accepted. -/
def bindSymbol (s : Store) (ty : TypeId) (symbol : SymbolId) : Except TableError Store :=
  match s.declaring? ty with
  | some existing =>
    if existing = symbol then .ok s else .error (.symbolAlreadyBound ty existing symbol)
  | none =>
    .ok { s with types := s.types.modify ty.index fun t => { t with symbol := some symbol } }

def signature? (s : Store) (ty : TypeId) : Option Signature :=
  match s.type? ty with
  | some ⟨.method signature, _⟩ => some signature
  | _ => none

/-! ## Symbols -/

def addSymbol (s : Store) (symbol : Symbol) : SymbolId × Store :=
  (s.nextSymbol, { s with symbols := s.symbols.push symbol })

@[simp] theorem symbol?_addSymbol_self (s : Store) (symbol : Symbol) :
    (s.addSymbol symbol).2.symbol? (s.addSymbol symbol).1 = some symbol := by
  simp [symbol?, addSymbol, nextSymbol]

/-- A package and its type. -/
def addPackage (s : Store) (name full : Name) (owner : Option SymbolId) : SymbolId × Store :=
  let id := s.nextSymbol
  let (ty, s) := s.addPackageType id
  s.addSymbol
    { modifiers := .empty, name, owner, ty, sentinel := none,
      body := .package { fullName := full, members := .members id, displayName := none } }

/-- A class whose type exists already. -/
def addClassOf (s : Store) (modifiers : Modifiers) (name full flat : Name) (ty : TypeId)
    (owner : SymbolId) : SymbolId × Store :=
  s.addSymbol
    { modifiers, name, owner := some owner, ty, sentinel := none, body := .cls (.named full flat) }

/-- A class and its type. -/
def addClass (s : Store) (modifiers : Modifiers) (name full flat : Name) (owner : SymbolId) :
    SymbolId × Store :=
  let (ty, s) := s.addClassType s.nextSymbol
  s.addClassOf modifiers name full flat ty owner

/-- A method and its type. -/
def addMethod (s : Store) (modifiers : Modifiers) (name : Name) (signature : Signature)
    (owner methodClass : SymbolId) : SymbolId × Store :=
  let (ty, s) := s.addMethodType signature methodClass
  s.addSymbol { modifiers, name, owner := some owner, ty, sentinel := none, body := .method }

/-- A built-in operator and its type; operators are public and static. -/
def addOperator (s : Store) (name : Name) (signature : Signature) (code : OperatorCode)
    (owner methodClass : SymbolId) : SymbolId × Store :=
  let (ty, s) := s.addMethodType signature methodClass
  s.addSymbol
    { modifiers := .ofFlags [.isPublic, .isStatic], name, owner := some owner, ty,
      sentinel := none, body := .operator code }

/-- A field or variable. -/
def addVariable (s : Store) (modifiers : Modifiers) (name : Name) (ty : TypeId)
    (owner : SymbolId) : SymbolId × Store :=
  s.addSymbol { modifiers, name, owner := some owner, ty, sentinel := none, body := .var }

/-! ## Classes -/

def classInfo? (s : Store) (id : SymbolId) : Option ClassInfo :=
  (s.symbol? id).bind Symbol.classInfo?

def classInfo (s : Store) (id : SymbolId) : Except TableError ClassInfo :=
  match s.classInfo? id with
  | some info => .ok info
  | none => .error (.notAClass id)

/-- Changes what is known of a class, which the symbol must be. -/
def updateClass (s : Store) (id : SymbolId) (f : ClassInfo → ClassInfo) :
    Except TableError Store :=
  match s.classInfo? id with
  | some _ => .ok (s.update id (Symbol.mapClass f))
  | none => .error (.notAClass id)

/-- The class that declares a type. -/
def classOf? (s : Store) (ty : TypeId) : Option SymbolId :=
  (s.declaring? ty).filter fun id => (s.classInfo? id).isSome

/-- Gives a class a fresh member scope in place of any other. -/
def resetMembers (s : Store) (id : SymbolId) : Except TableError Store :=
  s.updateClass id fun info => { info with members := some (.members id) }

/-- Gives a class an empty error scope in place of any other. -/
def setErrorMembers (s : Store) (id : SymbolId) : Except TableError Store :=
  s.updateClass id fun info => { info with members := some (.erroneous id) }

/-- Gives a class a member scope unless it has one. -/
def ensureMembers (s : Store) (id : SymbolId) : Except TableError Store :=
  s.updateClass id fun info => { info with members := some (info.members.getD (.members id)) }

/-! ## Members -/

def members? (s : Store) (id : SymbolId) : Option Scope := (s.symbol? id).bind Symbol.members?

/-- The simple name of a symbol. -/
def nameOf (s : Store) (id : SymbolId) : Name := ((s.symbol? id).map (·.name)).getD ""

/-- The type of a symbol. -/
def typeOf (s : Store) (id : SymbolId) : TypeId := ((s.symbol? id).map (·.ty)).getD .absent

/-- Enters a symbol into the scope of `owner` under its own name. -/
def enterMember (s : Store) (owner member : SymbolId) : Except TableError Store :=
  match s.members? owner with
  | some _ => .ok (s.update owner (Symbol.mapMembers fun scope => scope.enter (s.nameOf member) member))
  | none => .error (.missingMemberScope owner)

/-- The members of `owner` named `name`; none if it has no scope. -/
def lookupMember (s : Store) (owner : SymbolId) (name : Name) : List SymbolId :=
  match s.members? owner with
  | some scope => scope.lookup name
  | none => []

/-! ## Completers -/

def completer? (s : Store) (id : SymbolId) : Option Completer :=
  (s.classInfo? id).bind (·.completer)

/-- Leaves a completer on a class in place of any other. -/
def setCompleter (s : Store) (id : SymbolId) (c : Completer) : Store :=
  s.update id (Symbol.mapClass fun info => { info with completer := some c })

/-- Removes the completer of a class. -/
def dropCompleter (s : Store) (id : SymbolId) : Store :=
  s.update id (Symbol.mapClass fun info => { info with completer := none })

/-- No completion is pending. -/
def isCompleted (s : Store) (id : SymbolId) : Bool := (s.completer? id).isNone

def failure? (s : Store) (id : SymbolId) : Option FailureKind := (s.classInfo? id).bind (·.failure)

/-- Marks a class as failed: the reason is kept, and a class without a scope gets an error scope. -/
def recordFailure (s : Store) (id : SymbolId) (kind : FailureKind) : Store :=
  s.update id (Symbol.mapClass fun info =>
    { info with failure := some kind, members := some (info.members.getD (.erroneous id)) })

/-- How many completions the pending completers ask for in all. -/
def demands (s : Store) : Nat :=
  s.symbols.foldl (fun n symbol =>
    n + ((symbol.classInfo?.bind (·.completer)).map Completer.demands).getD 0) 0

end Store

end SymbolTable
