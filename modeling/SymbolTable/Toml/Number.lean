/-
Numbers, dates and times of TOML.

Integers fit in 64 bits with a sign. A float that is too large to tell from
infinity is refused, unless it is negative. Dates and times must exist.
-/
import SymbolTable.Toml.Reader

namespace SymbolTable.Toml

open Reader

def isDigit (c : Char) : Bool := decide ('0' ≤ c) && decide (c ≤ '9')

/-- The value of a digit in bases up to sixteen. -/
def digitValue (c : Char) : Nat :=
  if 'a' ≤ c then c.toNat - 'a'.toNat + 10
  else if 'A' ≤ c then c.toNat - 'A'.toNat + 10
  else c.toNat - '0'.toNat

def valueIn (base : Nat) (digits : List Char) : Nat :=
  digits.foldl (fun n c => n * base + digitValue c) 0

/-- Digits of a class, with single underscores between them. -/
def digits (p : Char → Bool) : Reader (List Char) := do
  let first ← satisfy p
  return first :: (← many (satisfy p <|> (char '_' *> satisfy p)))

/-- A sign, if there is one: whether it is a minus. -/
def sign : Reader Bool := (char '-' *> pure true) <|> (char '+' *> pure false) <|> pure false

/-- Decimal digits without a leading zero. -/
def wholePart : Reader (List Char) := do
  match ← rest with
  | '0' :: _ => return [← satisfy isDigit]
  | _ => digits isDigit

/-! ## Integers -/

def inBase (mark : Char) (base : Nat) (p : Char → Bool) : Reader Int := do
  char '0'
  char mark
  let n := valueIn base (← digits p)
  guard (n < Nat.pow 2 63)
  return n

def isHexDigit (c : Char) : Bool :=
  isDigit c || (decide ('a' ≤ c) && decide (c ≤ 'f')) || (decide ('A' ≤ c) && decide (c ≤ 'F'))

def decimal : Reader Int := do
  let negative ← sign
  let n := valueIn 10 (← wholePart)
  if negative then
    guard (n ≤ Nat.pow 2 63)
    return -n
  else
    guard (n < Nat.pow 2 63)
    return n

def integer : Reader Int :=
  inBase 'x' 16 isHexDigit
    <|> inBase 'o' 8 (fun c => decide ('0' ≤ c) && decide (c ≤ '7'))
    <|> inBase 'b' 2 (fun c => decide (c = '0') || decide (c = '1'))
    <|> decimal

/-! ## Floats -/

/-- The number `m · 10 ^ e` is nearer to the largest double than to the next power of two. -/
def isFinite (m : Nat) (e : Int) : Bool :=
  let limit := Nat.pow 2 1024 - Nat.pow 2 970
  let magnitude : Int := (Nat.toDigits 10 m).length + e
  if m = 0 ∨ magnitude ≤ 308 then true
  else if magnitude > 310 then false
  else if 0 ≤ e then m * Nat.pow 10 e.toNat < limit
  else m < limit * Nat.pow 10 (-e).toNat

/-- A power of ten. -/
def exponent : Reader Int := do
  let _ ← char 'e' <|> char 'E'
  let negative ← sign
  let n := valueIn 10 (← digits isDigit)
  return if negative then -n else n

def fraction : Reader (List Char) := char '.' *> digits isDigit

def plainFloat : Reader Unit := do
  let negative ← sign
  let whole ← wholePart
  let frac ← optional fraction
  let exp ← optional exponent
  guard (frac.isSome || exp.isSome)
  let frac := frac.getD []
  guard (negative || isFinite (valueIn 10 (whole ++ frac)) (exp.getD 0 - frac.length))

def specialFloat : Reader Unit := do
  let _ ← sign
  chars ['i', 'n', 'f'] <|> chars ['n', 'a', 'n']

def float : Reader Unit := plainFloat <|> specialFloat

/-! ## Dates and times -/

/-- A number of exactly `n` digits between two bounds. -/
def field (n lo hi : Nat) : Reader Nat := do
  let v := valueIn 10 (← times (satisfy isDigit) n)
  guard (lo ≤ v ∧ v ≤ hi)
  return v

def isLeap (year : Nat) : Bool :=
  decide (year % 4 = 0) && (decide (year % 100 ≠ 0) || decide (year % 400 = 0))

def daysIn (year month : Nat) : Nat :=
  if month = 2 then (if isLeap year then 29 else 28)
  else if month ∈ [4, 6, 9, 11] then 30
  else 31

def date : Reader Unit := do
  let year ← field 4 0 9999
  char '-'
  let month ← field 2 1 12
  char '-'
  let _ ← field 2 1 (daysIn year month)

def time : Reader Unit := do
  let _ ← field 2 0 23
  char ':'
  let _ ← field 2 0 59
  char ':'
  let _ ← field 2 0 60
  let _ ← optional (char '.' *> satisfy isDigit *> run isDigit)

def offset : Reader Unit :=
  (char 'Z' <|> char 'z') <|> do
    char '+' <|> char '-'
    let _ ← field 2 0 23
    char ':'
    let _ ← field 2 0 59

/-- A date, a time, or both; only both together have an offset. -/
def dateTime : Reader Unit :=
  (do
    date
    let _ ← optional do
      let _ ← satisfy fun c => c == 'T' || c == 't' || c == ' '
      time
      optional offset) <|> time

end SymbolTable.Toml
