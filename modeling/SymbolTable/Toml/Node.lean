/-
What a TOML document holds, and how tables grow.

A table remembers how it came to be, because that decides who may add to
it: a table written between braces is closed, a table with a header is
closed to dotted keys, a table that a dotted key made is closed to headers.
-/

namespace SymbolTable.Toml

/-- How a table came to be. -/
inductive Origin where
  /-- By its own header, or as the document itself. -/
  | header
  /-- By the header of a table inside it. -/
  | implied
  /-- By a dotted key. -/
  | dotted
  /-- Between braces. -/
  | inline
  deriving DecidableEq, Repr

inductive Node where
  | string (text : String)
  | boolean (value : Bool)
  | integer (value : Int)
  | float
  | dateTime
  | array (items : List Node)
  | table (origin : Origin) (entries : List (String × Node))
  /-- Tables that share a header between double brackets. -/
  | tables (elements : List (List (String × Node)))
  deriving Inhabited

abbrev Entries := List (String × Node)

namespace Entries

def get? (es : Entries) (key : String) : Option Node := es.lookup key

/-- Puts a node under a key, in place of any other. -/
def put (es : Entries) (key : String) (node : Node) : Entries :=
  if (es.get? key).isSome then es.map fun (k, v) => if k = key then (k, node) else (k, v)
  else es ++ [(key, node)]

/-- Changes the table at the end of a path, making the tables on the way that are missing. A path of
a dotted key does not lead through tables with a header of their own; no path leads through a value.
-/
def within (asDotted : Bool) (f : Origin → Entries → Option Entries) :
    List String → Origin → Entries → Option Entries
  | [], origin, es => f origin es
  | key :: path, _, es =>
    match es.get? key with
    | none =>
      let origin := if asDotted then Origin.dotted else Origin.implied
      (within asDotted f path origin []).map fun sub => es.put key (.table origin sub)
    | some (.table origin sub) =>
      if origin = .inline ∨ asDotted ∧ origin = .header then none
      else (within asDotted f path origin sub).map fun sub => es.put key (.table origin sub)
    | some (.tables elements) =>
      match elements.getLast? with
      | none => none
      | some last =>
        (within asDotted f path .header last).map fun last =>
          es.put key (.tables (elements.dropLast ++ [last]))
    | some _ => none

/-- Adds a value under a dotted key. The key must be new, and the table that holds it must be the one
at hand or one that dotted keys made. -/
def addValue (path : List String) (key : String) (value : Node) (origin : Origin)
    (es : Entries) : Option Entries :=
  within true (fun holder es =>
    if path ≠ [] ∧ holder ≠ .dotted then none
    else if (es.get? key).isSome then none
    else some (es.put key value)) path origin es

/-- Opens the table of a header. It must be new, or known only from the headers of tables inside. -/
def openTable (path : List String) (key : String) (es : Entries) : Option Entries :=
  within false (fun _ es =>
    match es.get? key with
    | none => some (es.put key (.table .header []))
    | some (.table .implied sub) => some (es.put key (.table .header sub))
    | some _ => none) path .header es

/-- Opens one more table of a header between double brackets. -/
def openElement (path : List String) (key : String) (es : Entries) : Option Entries :=
  within false (fun _ es =>
    match es.get? key with
    | none => some (es.put key (.tables [[]]))
    | some (.tables elements) => some (es.put key (.tables (elements ++ [[]])))
    | some _ => none) path .header es

end Entries

end SymbolTable.Toml
