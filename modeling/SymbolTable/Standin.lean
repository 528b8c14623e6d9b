/-
Stand-ins for classes that the class path may lack.

A stand-in is put behind the completer that a class has: a class that does
have a definition completes as before, and only a missing one is
synthesized. A class that is complete is left alone.
-/
import SymbolTable.Options
import SymbolTable.Primitives
import SymbolTable.WellKnown

namespace SymbolTable

namespace Store

/-- Puts `fallback` behind the pending completer of a class. -/
def fallBack (s : Store) (id : SymbolId) (fallback : Completer) : Store :=
  match s.completer? id with
  | none => s
  | some base => s.setCompleter id (.orElse base fallback)

/-- The class that declares a type, which must be one. -/
def declaringClass (s : Store) (ty : TypeId) : Except TableError SymbolId :=
  match s.declaring? ty with
  | none => .error (.notAClassType ty)
  | some id => (s.classInfo id).map fun _ => id

end Store

/-- What a stand-in is made from. -/
structure StandinContext where
  primitives : Primitives
  release : Release
  /-- The root object type. -/
  object : TypeId
  methodClass : SymbolId

namespace StandinContext

/-- The name of the boxing method. -/
def factoryName (c : StandinContext) : Name :=
  if c.release.boxesByConstructor then WellKnown.init.text else WellKnown.valueOf.text

/-- Makes the class of `ty` an empty public interface if it turns out to be missing. -/
def standForInterface (c : StandinContext) (ty : TypeId) (s : Store) :
    Except TableError (SymbolId × Store) :=
  match s.declaringClass ty with
  | .error e => .error e
  | .ok id => .ok (id, s.fallBack id (.emptyInterface c.object))

/-- Makes the wrapper class of the primitive `ty` a class with a boxing and an unboxing method if it
turns out to be missing. Only the canonical type of a tag with a wrapper class has one. -/
def standForBox (c : StandinContext) (r : Resolver) (ty : TypeId) (w : World) :
    Except TableError SymbolId × World :=
  let tag := ((w.store.type? ty).map (·.tag)).getD .absent
  match c.primitives.box? tag, w.store.declaring? ty with
  | some boxed, some declaring =>
    if c.primitives.type? tag = some ty then
      let unbox := w.store.nameOf declaring ++ unboxSuffix
      let (id, w) := r.askClass boxed (w.see unbox)
      let fallback := Completer.box ⟨ty, c.object, c.factoryName, unbox, c.methodClass⟩
      (.ok id, { w with store := w.store.fallBack id fallback })
    else (.error (.noBoxedForm tag), w)
  | _, _ => (.error (.noBoxedForm tag), w)

end StandinContext

end SymbolTable
