/-
The predefined table of one compilation: its sentinels, primitive types,
pseudo-classes, well-known classes and operators.

A table holds identities; what they stand for is in the store of the world
it was built in, which only grows. So the handles of a table stay good.
-/
import SymbolTable.Catalog
import SymbolTable.Completion
import SymbolTable.Operator
import SymbolTable.Standin
import SymbolTable.TypeText

namespace SymbolTable

/-- A class of the catalogue with its type. -/
structure ResolvedClass where
  entry : CatalogEntry
  ty : TypeId
  deriving DecidableEq, Repr

/-- The classes of a tier, in order. -/
abbrev Tier := List ResolvedClass

/-- The type of the class with a given label. -/
def Tier.typeOf (t : Tier) (label : String) : TypeId :=
  ((t.find? fun c => decide (c.entry.label = label)).map (·.ty)).getD .absent

/-- Asks for every class of a tier, in order. -/
def Resolver.askTier (r : Resolver) (tier : List CatalogEntry) (w : World) : Tier × World :=
  let (tys, w) := r.askTypes (Catalog.flatNames tier) w
  (List.zipWith ResolvedClass.mk tier tys, w)

structure Table where
  options : Options
  primitives : Primitives
  rootPackage : SymbolId
  /-- The package of what declares none. -/
  unnamedPackage : SymbolId
  noSymbol : SymbolId
  errorSymbol : SymbolId
  errorType : TypeId
  unknownSymbol : SymbolId
  unknownType : TypeId
  /-- Owns the members of every array type. -/
  arrayClass : SymbolId
  boundClass : SymbolId
  /-- Owns every method type. -/
  methodClass : SymbolId
  /-- Holds the primitive classes and the built-in operators. -/
  predefClass : SymbolId
  platform : Tier
  /-- The interface that stands for iteration on the release. -/
  iterable : TypeId
  /-- Absent until it is loaded, when the core library is compiled from source. -/
  core : Option Tier
  runtime : Tier
  /-- Marks proprietary interfaces. -/
  proprietary : TypeId
  /-- Marks profiles of the platform. -/
  profile : TypeId
  /-- The `finalize` that enums may not override. -/
  enumFinalize : SymbolId
  autoCloseableClose : SymbolId
  arrayLength : SymbolId
  arrayClone : SymbolId
  /-- The hidden operator for implicit null checks. -/
  nullCheck : SymbolId
  deriving DecidableEq

namespace Table

def sentinel (t : Table) : Sentinel → SymbolId
  | .root => t.rootPackage
  | .unnamed => t.unnamedPackage
  | .noSymbol => t.noSymbol
  | .error => t.errorSymbol
  | .unknown => t.unknownSymbol

/-- The symbols a table keeps hold of, by label. -/
def symbols (t : Table) : List (String × SymbolId) :=
  [("root_package", t.rootPackage),
   ("unnamed_package", t.unnamedPackage),
   ("no_symbol", t.noSymbol),
   ("err_symbol", t.errorSymbol),
   ("unknown_symbol", t.unknownSymbol),
   ("array_class", t.arrayClass),
   ("bound_class", t.boundClass),
   ("method_class", t.methodClass),
   ("predef_class", t.predefClass),
   ("enum_finalize", t.enumFinalize),
   ("auto_closeable_close", t.autoCloseableClose),
   ("array_length", t.arrayLength),
   ("array_clone", t.arrayClone),
   ("null_check", t.nullCheck)]

/-- The types a table keeps hold of outside its tiers, by label. -/
def types (t : Table) : List (String × TypeId) :=
  [("err_type", t.errorType),
   ("unknown_type", t.unknownType),
   ("iterable", t.iterable),
   ("proprietary", t.proprietary),
   ("jdk_profile", t.profile)]

def typeForTag? (t : Table) (tag : Tag) : Option TypeId := t.primitives.type? tag

def boxForTag? (t : Table) (tag : Tag) : Option Name := t.primitives.box? tag

/-- The overloads of an operator, in order of entry. -/
def operators (t : Table) (s : Store) (name : Name) : List OperatorSignature :=
  s.operatorsNamed t.predefClass name

/-- The overload of an operator with exactly these operands. -/
def lookupOperator? (t : Table) (s : Store) (name : Name) (operands : List TypeId) :
    Option OperatorSignature :=
  s.findOperator? t.predefClass name operands

/-- Asks for the classes of the core library. Building the table does this, unless that library is
compiled from source; asking again gives the same classes. -/
def loadCore (r : Resolver) (t : Table) (w : World) : Table × World :=
  let (core, w) := r.askTier Catalog.core w
  ({ t with core := some core }, w)

/-- What the table's stand-ins are made from. -/
def standins (t : Table) : StandinContext :=
  ⟨t.primitives, t.options.release, t.platform.typeOf "object", t.methodClass⟩

def standForInterface (t : Table) (ty : TypeId) (s : Store) : Except TableError (SymbolId × Store) :=
  t.standins.standForInterface ty s

def standForBox (t : Table) (r : Resolver) (ty : TypeId) (w : World) :
    Except TableError SymbolId × World :=
  t.standins.standForBox r ty w

end Table

end SymbolTable
