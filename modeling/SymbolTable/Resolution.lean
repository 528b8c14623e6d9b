/-
Entering classes and packages by name.

A class is entered lazily: it gets a symbol, a type and a completer that
will read its definition, and nothing is read yet. Whatever encloses it is
entered first: the outer class of a nested class, the package of any other,
the parent of a package. What is there already is found and left alone.
-/
import SymbolTable.World

namespace SymbolTable

namespace World

/-- Adds a package under a parent, and registers it. -/
def addPackage (w : World) (full : Name) (owner : Option SymbolId) : SymbolId × World :=
  let simple := full.lastPart '.'
  let w := w.see simple
  let (id, store) := w.store.addPackage simple full owner
  (id, { w with store := store.insertPackage full id })

/-- The package named `full`, entered below those of `outer` that are missing. -/
def enterPackageIn (w : World) (full : Name) : List Name → SymbolId × World
  | [] =>
    match w.store.package? full with
    | some id => (id, w)
    | none => w.addPackage full none
  | parent :: outer =>
    match w.store.package? full with
    | some id => (id, w)
    | none =>
      let (owner, w) := (w.see parent).enterPackageIn parent outer
      w.addPackage full (some owner)

/-- The package named `full`, entered with its parents if it is new. -/
def enterPackage (w : World) (full : Name) : SymbolId × World :=
  w.enterPackageIn full full.outerPackages

/-- Adds a class below `owner`, registers it and leaves it to be completed from its definition. -/
def addClass (w : World) (simple flat : Name) (owner : SymbolId) : SymbolId × World :=
  let w := w.see simple
  let (id, store) := w.store.addClass .empty simple flat.dotted flat owner
  (id, { w with store := (store.insertClass flat id).setCompleter id (.classFile flat) })

/-- Adds a top-level class to its package, also as a member. -/
def addTopClass (w : World) (flat : Name) : SymbolId × World :=
  let package := flat.packagePart
  let simple := flat.lastPart '.'
  let (owner, w) := ((w.see flat.dotted).see package).enterPackage package
  let (id, w) := w.addClass simple flat owner
  (id, { w with store := w.store.update owner (Symbol.mapMembers fun scope => scope.enter simple id) })

/-- The class named `flat`, entered inside those of `outer` that are missing. A nested class is
owned by its outer class and is not one of its members. -/
def enterClassIn (w : World) (flat : Name) : List Name → SymbolId × World
  | [] =>
    match w.store.class? flat with
    | some id => (id, w)
    | none => w.addTopClass flat
  | parent :: outer =>
    match w.store.class? flat with
    | some id => (id, w)
    | none =>
      let (owner, w) := ((w.see flat.dotted).see parent).enterClassIn parent outer
      w.addClass (flat.lastPart '$') flat owner

/-- The class named `flat`, entered with whatever encloses it if it is new. -/
def enterClass (w : World) (flat : Name) : SymbolId × World :=
  w.enterClassIn flat (flat.enclosing '$')

end World

/-- The resolver that enters names as the class path has them. -/
def ClassPath.resolver : Resolver where
  resolveClass flat w := w.enterClass flat
  resolvePackage full w := w.enterPackage full

/-- What a resolver may answer in place of the class asked for. -/
inductive Redirect where
  /-- The class with another flat name. -/
  | alias (flat : Name)
  /-- A package. -/
  | package (full : Name)
  /-- A symbol of the store, if it has one with this identity. -/
  | symbol (id : SymbolId)
  deriving DecidableEq, Repr

/-- The class path's resolver with some flat names redirected. Only the name asked for is
redirected, not those that enclose it. -/
def ClassPath.redirected (redirects : OrderedMap Name Redirect) : Resolver where
  resolveClass flat w :=
    match redirects.get? flat with
    | some (.alias other) => (w.see other).enterClass other
    | some (.package full) => (w.see full).enterPackage full
    | some (.symbol id) => if id.index < w.store.symbols.size then (id, w) else w.enterClass flat
    | none => w.enterClass flat
  resolvePackage full w := w.enterPackage full

end SymbolTable
