/-
Blanks, comments, strings and keys of TOML.
-/
import SymbolTable.Toml.Number

namespace SymbolTable.Toml

open Reader

/-! ## Blanks and line ends -/

def isBlank (c : Char) : Bool := c == ' ' || c == '\t'

/-- Tab and everything that is not a control character. -/
def isPlain (c : Char) : Bool := c == '\t' || (decide (' ' ≤ c) && decide (c ≠ '\x7f'))

def blanks : Reader Unit := do
  let _ ← run isBlank

def newline : Reader Unit := char '\n' <|> chars ['\r', '\n']

def comment : Reader Unit := do
  char '#'
  let _ ← run isPlain

/-- What may follow on a line, and its end. -/
def lineEnd : Reader Unit := do
  blanks
  let _ ← optional comment
  newline <|> atEnd

/-- Blanks, comments and line ends. -/
def gap : Reader Unit := do
  let _ ← many ((do let _ ← satisfy isBlank) <|> newline <|> comment)

/-! ## Strings -/

/-- The character with a given code, if there is one. -/
def scalar (digits : List Char) : Reader Char := do
  let n := valueIn 16 digits
  guard (n < 0xD800 ∨ (0xDFFF < n ∧ n < 0x110000))
  return Char.ofNat n

def escape : Reader Char := do
  char '\\'
  match ← satisfy (fun _ => true) with
  | 'b' => return '\x08'
  | 't' => return '\t'
  | 'n' => return '\n'
  | 'f' => return '\x0c'
  | 'r' => return '\r'
  | '"' => return '"'
  | '\\' => return '\\'
  | 'u' => scalar (← times (satisfy isHexDigit) 4)
  | 'U' => scalar (← times (satisfy isHexDigit) 8)
  | _ => failure

def isBasic (c : Char) : Bool := isPlain c && c != '"' && c != '\\'

def isLiteral (c : Char) : Bool := isPlain c && c != '\''

def basicString : Reader String := do
  char '"'
  let cs ← many (satisfy isBasic <|> escape)
  char '"'
  return String.ofList cs

def literalString : Reader String := do
  char '\''
  let cs ← run isLiteral
  char '\''
  return String.ofList cs

/-- One or two quotes that do not end a string of several lines. -/
def innerQuotes (quote : Char) : Reader (List Char) := do
  let qs ← run (· == quote)
  guard (qs.length = 1 ∨ qs.length = 2)
  return qs

/-- The end of a string of several lines; up to two quotes before it belong to the string. -/
def closingQuotes (quote : Char) : Reader (List Char) := do
  let qs ← run (· == quote)
  guard (3 ≤ qs.length ∧ qs.length ≤ 5)
  return qs.drop 3

/-- A line end in a string. -/
def innerNewline : Reader (List Char) := newline *> pure ['\n']

/-- A backslash at the end of a line, which takes away everything up to the next text. -/
def fold : Reader (List Char) := do
  char '\\'
  blanks
  newline
  let _ ← many ((do let _ ← satisfy isBlank) <|> newline)
  return []

/-- A string of several lines, made of `piece`s. -/
def multiline (quote : Char) (piece : Reader (List Char)) : Reader String := do
  chars [quote, quote, quote]
  let _ ← optional newline
  let pieces ← many (piece <|> innerNewline <|> innerQuotes quote)
  let last ← closingQuotes quote
  return String.ofList (pieces.flatten ++ last)

def one (r : Reader Char) : Reader (List Char) := do return [← r]

def string : Reader String :=
  multiline '"' (one (satisfy isBasic) <|> one escape <|> fold)
    <|> basicString
    <|> multiline '\'' (one (satisfy isLiteral))
    <|> literalString

/-! ## Keys -/

def isBare (c : Char) : Bool :=
  isDigit c || (decide ('a' ≤ c) && decide (c ≤ 'z')) || (decide ('A' ≤ c) && decide (c ≤ 'Z'))
    || c == '_' || c == '-'

def bareKey : Reader String := do
  let first ← satisfy isBare
  return String.ofList (first :: (← run isBare))

def simpleKey : Reader String := basicString <|> literalString <|> bareKey

/-- How deep values nest, and how many parts a key has, at most. -/
def depthLimit : Nat := 79

/-- A key and the path that leads to it. -/
def key : Reader (List String × String) := do
  let parts ← separated (blanks *> simpleKey <* blanks) (char '.')
  guard (parts.length ≤ depthLimit)
  match parts.getLast? with
  | some last => return (parts.dropLast, last)
  | none => failure

end SymbolTable.Toml
