/-
TOML documents.
-/
import SymbolTable.Toml.Node
import SymbolTable.Toml.Text

namespace SymbolTable.Toml

open Reader

/-! ## Values -/

def boolean : Reader Bool :=
  (chars ['t', 'r', 'u', 'e'] *> pure true) <|> (chars ['f', 'a', 'l', 's', 'e'] *> pure false)

/-- A value that holds no others. -/
def plainValue : Reader Node :=
  (.string <$> string) <|> (.boolean <$> boolean) <|> (dateTime *> pure .dateTime)
    <|> (float *> pure .float) <|> (.integer <$> integer)

/-- Values between brackets; a comma may follow the last one. -/
def arrayOf (value : Reader Node) : Reader Node := do
  char '['
  let items ← optional (separated (gap *> value <* gap) (char ','))
  match items with
  | none => gap
  | some _ => let _ ← optional (char ','); gap
  char ']'
  return .array (items.getD [])

/-- Keys and values between braces; no comma follows the last one. -/
def inlineTableOf (value : Reader Node) : Reader Node := do
  char '\x7b'
  let pair : Reader ((List String × String) × Node) := do
    let k ← key
    char '='
    blanks
    let v ← value
    blanks
    return (k, v)
  let pairs ← optional (separated pair (char ','))
  blanks
  char '\x7d'
  let entries ← (pairs.getD []).foldlM
    (fun (es : Entries) ((path, k), v) => liftM (es.addValue path k v .inline)) []
  return .table .inline entries

/-- A value with at most `depth` others around one inside it. -/
def valueWithin : Nat → Reader Node
  | 0 => plainValue
  | depth + 1 => plainValue <|> arrayOf (valueWithin depth) <|> inlineTableOf (valueWithin depth)

def value : Reader Node := valueWithin depthLimit

/-! ## Lines -/

inductive Line where
  | blank
  | entry (path : List String) (key : String) (value : Node)
  | table (path : List String) (key : String)
  | element (path : List String) (key : String)

def entryLine : Reader Line := do
  let (path, k) ← key
  char '='
  blanks
  let v ← value
  lineEnd
  return .entry path k v

def elementLine : Reader Line := do
  chars ['[', '[']
  let (path, k) ← key
  chars [']', ']']
  lineEnd
  return .element path k

def tableLine : Reader Line := do
  char '['
  let (path, k) ← key
  char ']'
  lineEnd
  return .table path k

def blankLine : Reader Line := do
  let _ ← optional comment
  newline
  return .blank

/-- A last line without an end of its own. -/
def lastLine : Reader Unit := do
  blanks
  let _ ← optional comment
  atEnd

def line : Reader Line := blanks *> (blankLine <|> elementLine <|> tableLine <|> entryLine)

/-- Every line; a byte order mark may stand in front. -/
def lines : Reader (List Line) := do
  let _ ← optional (char '\ufeff')
  let ls ← many line
  lastLine
  return ls

/-! ## Documents -/

/-- A document under construction: what it holds, and the header at hand. -/
structure Draft where
  entries : Entries
  header : List String

def Draft.add (d : Draft) : Line → Option Draft
  | .blank => some d
  | .entry path key value =>
    (d.entries.within false (fun _ es => es.addValue path key value .header) d.header .header).map
      fun entries => { d with entries }
  | .table path key => (d.entries.openTable path key).map fun entries => ⟨entries, path ++ [key]⟩
  | .element path key =>
    (d.entries.openElement path key).map fun entries => ⟨entries, path ++ [key]⟩

/-- The entries of a document, if the text is one. -/
def parse? (text : String) : Option Entries := do
  let (ls, _) ← lines text.toList
  let draft ← ls.foldlM Draft.add ⟨[], []⟩
  return draft.entries

end SymbolTable.Toml
