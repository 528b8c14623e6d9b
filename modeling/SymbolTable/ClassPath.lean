/-
The class path: definitions of classes by flat name, held in memory.

A definition is read when its class is completed, not when the class is
entered, so definitions may come and go in between.
-/
import SymbolTable.Modifiers
import SymbolTable.Name
import SymbolTable.OrderedMap

namespace SymbolTable

/-- What the class path knows of one class. -/
structure ClassDef where
  modifiers : Modifiers
  /-- The flat name of the superclass. -/
  supertype : Option Name
  /-- The flat names of the interfaces. -/
  interfaces : List Name
  /-- Why the definition cannot be read, if it cannot. -/
  corrupt : Option String
  deriving DecidableEq, Repr

/-- The flat name of the root of every class hierarchy. -/
def objectName : Name := "java.lang.Object"

namespace ClassDef

/-- Nothing said. -/
def blank : ClassDef := ⟨.empty, none, [], none⟩

/-- A public class below `supertype`. -/
def below (supertype : Name) : ClassDef :=
  { blank with modifiers := .single .isPublic, supertype := some supertype }

/-- A public interface. -/
def interface : ClassDef :=
  { blank with
    modifiers := .ofFlags [.isPublic, .isInterface, .isAbstract], supertype := some objectName }

/-- A definition that cannot be read. -/
def unreadable (reason : String) : ClassDef := { blank with corrupt := some reason }

end ClassDef

structure ClassPath where
  definitions : OrderedMap Name ClassDef
  deriving DecidableEq

namespace ClassPath

def empty : ClassPath := ⟨.empty⟩

def get? (p : ClassPath) (flat : Name) : Option ClassDef := p.definitions.get? flat

def contains (p : ClassPath) (flat : Name) : Bool := p.definitions.contains flat

/-- Adds a definition, or replaces the one there was. -/
def insert (p : ClassPath) (flat : Name) (d : ClassDef) : ClassPath :=
  ⟨p.definitions.insert flat d⟩

def erase (p : ClassPath) (flat : Name) : ClassPath := ⟨p.definitions.erase flat⟩

def size (p : ClassPath) : Nat := p.definitions.size

def isEmpty (p : ClassPath) : Bool := p.definitions.isEmpty

def describe (p : ClassPath) : String := s!"ClassPath \x7b classes: {p.size}, .. \x7d"

end ClassPath

end SymbolTable
