/-
Releases of the target platform, and the options that shape a table.
-/
import SymbolTable.Name

namespace SymbolTable

/-- The release of the target platform, oldest to newest. -/
inductive Release where
  /-- 1.4 has neither boxing factories nor an iterable interface. -/
  | v14
  | v15
  | v16
  | v17
  deriving DecidableEq, Repr

namespace Release

def all : List Release := [v14, v15, v16, v17]

theorem mem_all (r : Release) : r ∈ all := by cases r <;> simp [all]

/-- The release as it is written. -/
def text : Release → String
  | v14 => "1.4"
  | v15 => "1.5"
  | v16 => "1.6"
  | v17 => "1.7"

/-- The name of a release among releases. -/
def label : Release → String
  | v14 => "Jdk1_4"
  | v15 => "Jdk1_5"
  | v16 => "Jdk1_6"
  | v17 => "Jdk1_7"

/-- The release written exactly so. -/
def ofText? (s : String) : Option Release := all.find? fun r => decide (r.text = s)

/-- The release written so, or in short; 1.4 has no short form. -/
def parse? (s : String) : Option Release :=
  match s with
  | "5" => some v15
  | "6" => some v16
  | "7" => some v17
  | _ => ofText? s

/-- Boxing goes through constructors rather than factories. -/
def boxesByConstructor (r : Release) : Bool := decide (r = v14)

/-- The platform has an interface for iteration of its own. -/
def hasIterable (r : Release) : Bool := !r.boxesByConstructor

/-- The flat name of the interface that stands for iteration. -/
def iterableName (r : Release) : Name :=
  if r.hasIterable then "java.lang.Iterable" else "java.util.Collection"

end Release

structure Options where
  /-- The core library is compiled from source in this run, so its classes are not loaded while the
  table is built. -/
  selfHosting : Bool
  release : Release
  deriving DecidableEq, Repr

def Options.default : Options := ⟨false, .v17⟩

end SymbolTable
