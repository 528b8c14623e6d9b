/-
Readers: what a grammar rule takes from the front of a text.

A reader fails, or gives a value and what is left. A choice tries the second
reader from where the first one began.
-/

namespace SymbolTable.Toml

abbrev Reader := StateT (List Char) Option

namespace Reader

variable {α β : Type}

/-- What is left of the text. -/
def rest : Reader (List Char) := get

/-- One character of a class. -/
def satisfy (p : Char → Bool) : Reader Char := fun cs =>
  match cs with
  | c :: rest => if p c then some (c, rest) else none
  | [] => none

def char (c : Char) : Reader Unit := do
  let _ ← satisfy (· == c)

/-- Exactly these characters. -/
def chars : List Char → Reader Unit
  | [] => return ()
  | c :: rest => do
    char c
    chars rest

/-- The longest run of a class; it may be empty. -/
def run (p : Char → Bool) : Reader (List Char) := fun cs => some (cs.takeWhile p, cs.dropWhile p)

/-- The text is used up. -/
def atEnd : Reader Unit := fun cs => if cs.isEmpty then some ((), cs) else none

/-- As many as there are, up to `n`. -/
def upTo (r : Reader α) : Nat → Reader (List α)
  | 0 => return []
  | n + 1 => do
    match ← optional r with
    | none => return []
    | some a => return a :: (← upTo r n)

/-- As many as there are. A text of `n` characters holds at most `n` of what takes a character. -/
def many (r : Reader α) : Reader (List α) := do
  upTo r (← rest).length

/-- One or more, with a separator between them. -/
def separated (r : Reader α) (sep : Reader β) : Reader (List α) := do
  let first ← r
  return first :: (← many (sep *> r))

/-- Exactly `n`. -/
def times (r : Reader α) : Nat → Reader (List α)
  | 0 => return []
  | n + 1 => do
    let a ← r
    return a :: (← times r n)

end Reader

end SymbolTable.Toml
