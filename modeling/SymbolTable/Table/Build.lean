/-
Building the predefined table.

The steps run in a fixed order and each relies on those before it. No class
is completed, so a class that is missing or broken is not noticed here.
-/
import SymbolTable.Messages
import SymbolTable.Operator.Builtin
import SymbolTable.Table

namespace SymbolTable

/-- Steps that change the world and may go wrong; what was done before an error stays done. -/
abbrev TableM := ExceptT TableError (StateM World)

namespace TableM

def run {α : Type} (m : TableM α) (w : World) : Except TableError α × World := ExceptT.run m w

/-- A step given by what it does to the world. -/
def ofWorld {α : Type} (f : World → Except TableError α × World) : TableM α := ExceptT.mk f

/-- A step that cannot go wrong. -/
def total {α : Type} (f : World → α × World) : TableM α :=
  ofWorld fun w => let (a, w) := f w; (.ok a, w)

/-- Adds something to the store. -/
def add {α : Type} (f : Store → α × Store) : TableM α := total fun w => w.onStore f

/-- Changes the store. -/
def change (f : Store → Store) : TableM Unit :=
  total fun w => ((), { w with store := f w.store })

/-- Changes the store if it allows it. -/
def attempt (f : Store → Except TableError Store) : TableM Unit :=
  ofWorld fun w =>
    match f w.store with
    | .ok store => (.ok (), { w with store })
    | .error e => (.error e, w)

/-- The class with a flat name. -/
def ask (r : Resolver) (flat : Name) : TableM SymbolId := total fun w => r.askClass flat (w.see flat)

/-- The type of the class with a flat name. -/
def askType (r : Resolver) (flat : Name) : TableM TypeId := total (r.askType flat)

def store : TableM Store := total fun w => (w.store, w)

end TableM

namespace Build

open TableM

/-- The primitive tags in order of registration, with the names of their classes and wrappers. -/
def primitiveClasses : List (Tag × Name × Option String) :=
  [(.void, "void", some "Void"),
   (.bot, "<nulltype>", none),
   (.byte, "byte", some "Byte"),
   (.char, "char", some "Character"),
   (.short, "short", some "Short"),
   (.int, "int", some "Integer"),
   (.long, "long", some "Long"),
   (.float, "float", some "Float"),
   (.double, "double", some "Double"),
   (.boolean, "boolean", some "Boolean")]

/-- The primitives whose wrapper class may be missing. -/
def optionalBoxes : List Tag := [.double, .float]

/-! ## Sentinels -/

structure Sentinels where
  rootPackage : SymbolId
  unnamedPackage : SymbolId
  noSymbol : SymbolId
  errorSymbol : SymbolId
  errorType : TypeId
  unknownSymbol : SymbolId
  unknownType : TypeId

def markAs (id : SymbolId) (s : Sentinel) : TableM Unit :=
  change fun store => store.update id fun symbol => { symbol with sentinel := some s }

/-- Shows a package under a name that is not its own. -/
def showAs (id : SymbolId) (display : String) : TableM Unit :=
  change fun store => store.update id fun symbol =>
    match symbol.body with
    | .package info => { symbol with body := .package { info with displayName := some display } }
    | _ => symbol

def sentinelModifiers : Modifiers := .ofFlags [.isPublic, .isStatic, .isAcyclic]

def enterSentinels (messages : Messages) : TableM Sentinels := do
  let unknownType ← add (·.addPrimitive .unknown)
  let rootPackage ← add (·.addPackage "" "" none)
  markAs rootPackage .root
  change (·.insertPackage "" rootPackage)
  let unnamedPackage ← add (·.addPackage "" "" (some rootPackage))
  markAs unnamedPackage .unnamed
  showAs unnamedPackage (messages unnamedPackageKey)
  let noSymbol ← add (·.addSymbol
    { modifiers := .empty, name := "", owner := some rootPackage, ty := .absent,
      sentinel := some .noSymbol, body := .nil })
  let any := WellKnown.any.text
  let errorSymbol ← add (·.addClassOf sentinelModifiers any any any .absent rootPackage)
  let errorType ← add (·.addErrorType errorSymbol none)
  change fun store => store.update errorSymbol fun symbol =>
    { symbol.mapClass ({ · with erroneous := true }) with
      sentinel := some .error, ty := errorType }
  attempt (·.setErrorMembers errorSymbol)
  let unknown := WellKnown.unknownAny.text
  let unknownSymbol ←
    add (·.addClassOf sentinelModifiers unknown unknown unknown unknownType rootPackage)
  markAs unknownSymbol .unknown
  attempt (·.setErrorMembers unknownSymbol)
  return { rootPackage, unnamedPackage, noSymbol, errorSymbol, errorType, unknownSymbol,
           unknownType }

/-! ## Primitive types and pseudo-classes -/

def registerAll (root : SymbolId) (p : Primitives) :
    List (Tag × Name × Option String) → TableM Primitives
  | [] => return p
  | (tag, name, box) :: rest => do
    let (_, p) ← ofWorld (p.register root tag name box)
    registerAll root p rest

def registerExisting (p : Primitives) (tag : Tag) (ty : TypeId) (symbol : SymbolId) :
    TableM Primitives :=
  ofWorld fun w =>
    match p.registerExisting tag ty symbol w.store with
    | .ok (p, store) => (.ok p, { w with store })
    | .error e => (.error e, w)

def enterPrimitives (s : Sentinels) : TableM Primitives := do
  let p ← registerAll s.rootPackage .empty primitiveClasses
  let p ← registerExisting p .error s.errorType s.errorSymbol
  registerExisting p .unknown s.unknownType s.unknownSymbol

structure PseudoClasses where
  array : SymbolId
  bound : SymbolId
  method : SymbolId
  predef : SymbolId

def pseudoModifiers : Modifiers := .ofFlags [.isPublic, .isAcyclic]

def addPseudoClass (name : Name) (owner : SymbolId) : TableM SymbolId :=
  add (·.addClass pseudoModifiers name name name owner)

def enterPseudoClasses (s : Sentinels) : TableM PseudoClasses := do
  let array ← addPseudoClass WellKnown.array.text s.noSymbol
  attempt (·.resetMembers array)
  let bound ← addPseudoClass WellKnown.bound.text s.noSymbol
  attempt (·.setErrorMembers bound)
  let method ← addPseudoClass WellKnown.method.text s.noSymbol
  attempt (·.setErrorMembers method)
  let predef ← addPseudoClass WellKnown.empty.text s.rootPackage
  attempt (·.resetMembers predef)
  change (·.insertClass WellKnown.empty.text predef)
  return { array, bound, method, predef }

/-- Enters the class of each tag into the predefined class. -/
def enterPrimitiveClasses (p : Primitives) (predef : SymbolId) : List Tag → TableM Unit
  | [] => return ()
  | tag :: rest => do
    let ty ← liftExcept (p.require tag)
    match (← store).declaring? ty with
    | none => throw (.primitiveNotRegistered tag)
    | some id => attempt (·.enterMember predef id)
    enterPrimitiveClasses p predef rest
where
  liftExcept {α : Type} (e : Except TableError α) : TableM α := ofWorld fun w => (e, w)

/-! ## Classes -/

def require (p : Primitives) (tag : Tag) : TableM TypeId := ofWorld fun w => (p.require tag, w)

/-- A method that belongs to a class without being one of its members. -/
def addLooseMethod (r : Resolver) (owner : Name) (modifiers : Modifiers) (name : Name)
    (signature : Signature) (methodClass : SymbolId) : TableM SymbolId := do
  let id ← ask r owner
  add (·.addMethod modifiers name signature id methodClass)

/-- Puts an interface's stand-in behind each class that may be missing. -/
def standForInterfaces (r : Resolver) (c : StandinContext) : List Name → TableM Unit
  | [] => return ()
  | flat :: rest => do
    let ty ← askType r flat
    attempt fun s => (c.standForInterface ty s).map (·.2)
    standForInterfaces r c rest

def standForBoxes (r : Resolver) (c : StandinContext) : List Tag → TableM Unit
  | [] => return ()
  | tag :: rest => do
    let ty ← require c.primitives tag
    let _ ← ofWorld (c.standForBox r ty)
    standForBoxes r c rest

def markerModifiers : Modifiers :=
  .ofFlags [.isPublic, .isAcyclic, .isAnnotationType, .isInterface]

/-- Makes a class a complete annotation that is never read. -/
def enterMarker (id : SymbolId) (supertype : TypeId) : TableM Unit := do
  change (·.dropCompleter id)
  change (·.update id fun symbol => { symbol with modifiers := markerModifiers })
  attempt (·.updateClass id fun info =>
    { info with
      members := some (.members id)
      typeParams := some []
      supertype := some supertype
      interfaces := some [] })

structure ArrayMembers where
  length : SymbolId
  clone : SymbolId

/-- Arrays are objects with a length that can be cloned. -/
def enterArrayMembers (array methodClass : SymbolId) (int : TypeId) (platform : Tier) :
    TableM ArrayMembers := do
  let object := platform.typeOf "object"
  attempt (·.updateClass array fun info =>
    { info with
      supertype := some object
      interfaces := some [platform.typeOf "cloneable", platform.typeOf "serializable"] })
  attempt (·.resetMembers array)
  let length ← add (·.addVariable (.ofFlags [.isPublic, .isFinal]) WellKnown.length.text int array)
  attempt (·.enterMember array length)
  let clone ← add (·.addMethod (.single .isPublic) WellKnown.clone.text (.of [] object) array
    methodClass)
  attempt (·.enterMember array clone)
  return { length, clone }

/-- Asks for the core library, unless it is compiled from source. -/
def enterCore (r : Resolver) (options : Options) : TableM (Option Tier) :=
  if options.selfHosting then return none
  else do
    let core ← total (r.askTier Catalog.core)
    return some core

end Build

open Build TableM in
/-- The steps that build a table. -/
def Table.building (options : Options) (messages : Messages) (r : Resolver) : TableM Table := do
  total fun w => ((), { w with store := .empty }.seeAll WellKnown.texts)
  let s ← enterSentinels messages
  let primitives ← enterPrimitives s
  let pseudo ← enterPseudoClasses s
  enterPrimitiveClasses primitives pseudo.predef (primitiveClasses.map (·.1))
  attempt (·.enterMember pseudo.predef s.errorSymbol)
  let platform ← total (r.askTier Catalog.platform)
  let iterable ← askType r options.release.iterableName
  let void ← require primitives .void
  let enumFinalize ← addLooseMethod r "java.lang.Enum"
    (.ofFlags [.isProtected, .isFinal, .isHypothetical]) WellKnown.finalize.text (.of [] void)
    pseudo.method
  let autoCloseableClose ← addLooseMethod r "java.lang.AutoCloseable" (.single .isPublic)
    WellKnown.close.text ⟨[], void, [platform.typeOf "exception"]⟩ pseudo.method
  let core ← enterCore r options
  let runtime ← total (r.askTier Catalog.runtime)
  let object := platform.typeOf "object"
  let standins : StandinContext := ⟨primitives, options.release, object, pseudo.method⟩
  standForInterfaces r standins Catalog.optionalInterfaces
  standForBoxes r standins optionalBoxes
  let proprietary ← ask r "sun.Proprietary+Annotation"
  let proprietaryType := (← store).typeOf proprietary
  let profile ← ask r "jdk.Profile+Annotation"
  let profileType := (← store).typeOf profile
  enterMarker proprietary (platform.typeOf "annotation")
  enterMarker profile (platform.typeOf "annotation")
  let int ← require primitives .int
  let arrayMembers ← enterArrayMembers pseudo.array pseudo.method int platform
  let types : OperandTypes := ⟨primitives, object, platform.typeOf "string"⟩
  let nullCheck ← ofWorld fun w => w.enterBuiltins types pseudo.predef pseudo.method
  return {
    options, primitives, platform, iterable, core, runtime, enumFinalize, autoCloseableClose,
    nullCheck
    rootPackage := s.rootPackage
    unnamedPackage := s.unnamedPackage
    noSymbol := s.noSymbol
    errorSymbol := s.errorSymbol
    errorType := s.errorType
    unknownSymbol := s.unknownSymbol
    unknownType := s.unknownType
    arrayClass := pseudo.array
    boundClass := pseudo.bound
    methodClass := pseudo.method
    predefClass := pseudo.predef
    proprietary := proprietaryType
    profile := profileType
    arrayLength := arrayMembers.length
    arrayClone := arrayMembers.clone }

/-- Builds the predefined table in a world whose store is cleared first. -/
def Table.build (options : Options) (messages : Messages) (r : Resolver) (w : World) :
    Except TableError Table × World :=
  (Table.building options messages r).run w

end SymbolTable
