/-
Options written as a TOML document.

A missing key means the default, and keys that mean nothing here are
ignored. The release is a string, or a table whose only key is the release
and holds nothing.
-/
import SymbolTable.Options
import SymbolTable.Toml.Document

namespace SymbolTable

open Toml (Node Entries)

namespace Options

def selfHostingOf? : Node → Option Bool
  | .boolean b => some b
  | _ => none

/-- Nothing is held. -/
def isBare : Node → Bool
  | .table _ entries => entries.isEmpty
  | .array items => items.isEmpty
  | _ => false

def releaseOf? : Node → Option Release
  | .string s => Release.ofText? s
  | .table _ [(key, node)] => if isBare node then Release.ofText? key else none
  | _ => none

/-- The options a document asks for. -/
def ofEntries? (es : Entries) : Option Options := do
  let selfHosting ← match es.get? "self-hosting-bootstrap" with
    | none => some default.selfHosting
    | some node => selfHostingOf? node
  let release ← match es.get? "target" with
    | none => some default.release
    | some node => releaseOf? node
  return { selfHosting, release }

/-- The options of a text, if it is a document that makes sense. -/
def ofToml? (text : String) : Option Options := (Toml.parse? text).bind ofEntries?

end Options

end SymbolTable
