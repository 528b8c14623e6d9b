/-
The canonical type of each primitive tag, and the name of its wrapper class.

Each tag is registered at most once, and a registered type never changes.
-/
import SymbolTable.World

namespace SymbolTable

structure Primitives where
  types : OrderedMap Tag TypeId
  /-- Full names of the wrapper classes. -/
  boxes : OrderedMap Tag Name
  deriving DecidableEq

namespace Primitives

def empty : Primitives := ⟨.empty, .empty⟩

def type? (p : Primitives) (tag : Tag) : Option TypeId := p.types.get? tag

def box? (p : Primitives) (tag : Tag) : Option Name := p.boxes.get? tag

/-- The type of a tag, which must be registered. -/
def require (p : Primitives) (tag : Tag) : Except TableError TypeId :=
  match p.type? tag with
  | some ty => .ok ty
  | none => .error (.primitiveNotRegistered tag)

/-- The first primitive tag registered with a type. -/
def tagOf? (p : Primitives) (ty : TypeId) : Option Tag :=
  Tag.primitives.find? fun tag => decide (p.type? tag = some ty)

/-- The full name of a wrapper class. -/
def boxName (simple : String) : Name := "java.lang." ++ simple

/-- Creates the type of a tag together with a public class that declares it, and notes the name of
its wrapper class if it has one. -/
def register (p : Primitives) (root : SymbolId) (tag : Tag) (name : Name) (box : Option String)
    (w : World) : Except TableError (TypeId × Primitives) × World :=
  match p.type? tag with
  | some _ => (.error (.duplicatePrimitive tag), w)
  | none =>
    let (ty, store) := w.store.addPrimitive tag
    let w := w.see name
    let (id, store) := store.addClassOf (.single .isPublic) name name name ty root
    match store.bindSymbol ty id with
    | .error e => (.error e, { w with store })
    | .ok store =>
      let types := p.types.insert tag ty
      match box with
      | none => (.ok (ty, { p with types }), { w with store })
      | some simple =>
        let full := boxName simple
        (.ok (ty, ⟨types, p.boxes.insert tag full⟩), { w.see full with store })

/-- Registers a type that exists already, declared by `symbol`. -/
def registerExisting (p : Primitives) (tag : Tag) (ty : TypeId) (symbol : SymbolId) (s : Store) :
    Except TableError (Primitives × Store) :=
  match p.type? tag with
  | some _ => .error (.duplicatePrimitive tag)
  | none =>
    match s.bindSymbol ty symbol with
    | .error e => .error e
    | .ok s => .ok ({ p with types := p.types.insert tag ty }, s)

end Primitives

end SymbolTable
