/-
The world a compilation works on, and resolvers.

A world is the name table, the class path and the store together, with the
requests made to the resolver so far. A resolver turns a qualified name into
a symbol, entering it if it is new; it may change the world as it does.
-/
import SymbolTable.ClassPath
import SymbolTable.NameTable
import SymbolTable.Store

namespace SymbolTable

/-- A request to a resolver. -/
inductive Request where
  | cls (flat : Name)
  | package (full : Name)
  deriving DecidableEq, Repr

def Request.text : Request → String
  | cls flat => flat
  | package full => "package " ++ full

structure World where
  names : NameTable
  path : ClassPath
  store : Store
  /-- What was asked of the resolver, the oldest first. -/
  requests : List Request
  deriving DecidableEq

namespace World

/-- Nothing seen, nothing defined, nothing stored. -/
def empty : World := ⟨.empty, .empty, .empty, []⟩

/-- Enters a text into the name table. -/
def see (w : World) (n : Name) : World := { w with names := w.names.see n }

def seeAll (w : World) (ns : List Name) : World := { w with names := w.names.seeAll ns }

/-- Adds a definition to the class path. -/
def define (w : World) (flat : Name) (d : ClassDef) : World :=
  { w.see flat with path := w.path.insert flat d }

/-- Runs an operation of the store. -/
def onStore {α : Type} (w : World) (f : Store → α × Store) : α × World :=
  let (a, store) := f w.store
  (a, { w with store })

end World

/-- Turns names into symbols. -/
structure Resolver where
  /-- The class with a flat name. -/
  resolveClass : Name → World → SymbolId × World
  /-- The package with a full name. -/
  resolvePackage : Name → World → SymbolId × World

namespace Resolver

/-- Asks for a class, noting the request. -/
def askClass (r : Resolver) (flat : Name) (w : World) : SymbolId × World :=
  r.resolveClass flat { w with requests := w.requests ++ [.cls flat] }

/-- Asks for a package, noting the request. -/
def askPackage (r : Resolver) (full : Name) (w : World) : SymbolId × World :=
  r.resolvePackage full { w with requests := w.requests ++ [.package full] }

/-- Sees a flat name, asks for its class and gives the type of the answer. -/
def askType (r : Resolver) (flat : Name) (w : World) : TypeId × World :=
  let (id, w) := r.askClass flat (w.see flat)
  (w.store.typeOf id, w)

/-- Asks for the types of several classes, in order. -/
def askTypes (r : Resolver) : List Name → World → List TypeId × World
  | [], w => ([], w)
  | flat :: rest, w =>
    let (ty, w) := r.askType flat w
    let (tys, w) := r.askTypes rest w
    (ty :: tys, w)

end Resolver

end SymbolTable
