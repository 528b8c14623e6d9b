/-
The files a command can read, and where a path leads among them.

A path is followed name by name, and the first name that leads nowhere
decides how it fails. Only a directory can be gone through, so nothing may
follow the name of a file, not even a slash; a name is looked at only in a
directory that exists, so what stands after a missing name does not matter.
-/

namespace SymbolTable.CommandLine

/-- Why a file could not be read. -/
inductive ReadFailure where
  | notFound
  | permissionDenied
  | notADirectory
  | isADirectory
  | nameTooLong
  | notText
  deriving DecidableEq, Repr

def ReadFailure.message : ReadFailure → String
  | notFound => "No such file or directory (os error 2)"
  | permissionDenied => "Permission denied (os error 13)"
  | notADirectory => "Not a directory (os error 20)"
  | isADirectory => "Is a directory (os error 21)"
  | nameTooLong => "File name too long (os error 36)"
  | notText => "stream did not contain valid UTF-8"

/-- The names that lead from the root to a place, the innermost first. The root has none. -/
abbrev Location := List String

/-- Directories, files with their texts, and the directory that paths start from. -/
structure Files where
  directories : List Location
  texts : List (Location × String)
  current : Location

namespace Files

/-- The longest name a file can have, in bytes. -/
def nameLimit : Nat := 255

/-- The longest path, in bytes. -/
def pathLimit : Nat := 4095

/-- Directories that stand at the root wherever the command runs. -/
def common : List Location := [["dev"], ["etc"], ["tmp"], ["usr"], ["var"]]

/-- The null device, which holds nothing. -/
def nullDevice : Location := ["null", "dev"]

/-- Text files, alone in a temporary directory. -/
def inScratch (texts : List (String × String)) : Files :=
  let current : Location := ["scratch", "tmp"]
  { directories := current :: common
    texts := (nullDevice, "") :: texts.map fun (name, text) => (name :: current, text)
    current }

def isDirectory (fs : Files) (l : Location) : Bool := l.isEmpty || fs.directories.contains l

def text? (fs : Files) (l : Location) : Option String := fs.texts.lookup l

/-- Goes on by one name of a path. An empty name and a dot stay, two dots lead to the directory
around, and the root is around itself. -/
def follow (fs : Files) (l : Location) (name : String) : Except ReadFailure Location :=
  if !fs.isDirectory l then .error .notADirectory
  else if name = "" ∨ name = "." then .ok l
  else if name = ".." then .ok l.tail
  else if nameLimit < name.utf8ByteSize then .error .nameTooLong
  else if fs.isDirectory (name :: l) ∨ (fs.text? (name :: l)).isSome then .ok (name :: l)
  else .error .notFound

/-- The place that a path leads to. A path with a slash in front starts at the root. -/
def find (fs : Files) (path : String) : Except ReadFailure Location :=
  if pathLimit < path.utf8ByteSize then .error .nameTooLong
  else (path.splitOn "/").foldlM fs.follow (if path.toList.head? = some '/' then [] else fs.current)

/-- Reads the file that a path leads to. -/
def read (fs : Files) (path : String) : Except ReadFailure String := do
  match fs.text? (← fs.find path) with
  | some text => return text
  | none => throw .isADirectory

end Files

end SymbolTable.CommandLine
