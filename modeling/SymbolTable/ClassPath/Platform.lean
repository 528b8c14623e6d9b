/-
The class path that comes with the compiler.
-/
import SymbolTable.Catalog
import SymbolTable.World

namespace SymbolTable

namespace World

def defineAll (w : World) (classes : List (Name × ClassDef)) : World :=
  classes.foldl (fun w (flat, d) => w.define flat d) w

end World

namespace Catalog

/-- The root of the hierarchy extends nothing. -/
def objectDef : ClassDef := { ClassDef.blank with modifiers := .single .isPublic }

/-- What a platform or runtime class is taken to be. -/
def assumedDef (flat : Name) : ClassDef :=
  if flat ∈ interfaces then .interface else .below objectName

/-- The definitions of the platform and runtime classes, and of both interfaces for iteration. -/
def platformDefs : List (Name × ClassDef) :=
  let others := flatNames platform ++ [Release.v15.iterableName, Release.v14.iterableName]
    ++ flatNames runtime
  (objectName, objectDef) ::
    (others.filter fun flat => decide (flat ≠ objectName)).map fun flat => (flat, assumedDef flat)

/-- The definitions of the core library. -/
def coreDefs : List (Name × ClassDef) := (flatNames core).map fun flat => (flat, .below objectName)

end Catalog

namespace World

/-- Puts the platform and runtime classes on the class path. -/
def definePlatform (w : World) : World := w.defineAll Catalog.platformDefs

/-- Puts the core library on the class path. -/
def defineCore (w : World) : World := w.defineAll Catalog.coreDefs

end World

end SymbolTable
