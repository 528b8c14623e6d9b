/-
Modifiers of symbols: a word of 64 bits, of which twelve have names.

The positions are those of class files, so modifiers read from a definition
are stored as they are; bits without a name are kept.
-/

namespace SymbolTable

structure Modifiers where
  bits : UInt64
  deriving DecidableEq, Repr

namespace Modifiers

/-- The named modifiers. -/
inductive Flag where
  | isPublic
  | isPrivate
  | isProtected
  | isStatic
  | isFinal
  | isInterface
  | isAbstract
  | isSynthetic
  | isAnnotationType
  | isEnum
  /-- The supertypes are known to be free of cycles. -/
  | isAcyclic
  /-- Exists for checking only and is never emitted. -/
  | isHypothetical
  deriving DecidableEq, Repr

namespace Flag

/-- Every named modifier, by position. -/
def all : List Flag :=
  [isPublic, isPrivate, isProtected, isStatic, isFinal, isInterface, isAbstract, isSynthetic,
    isAnnotationType, isEnum, isAcyclic, isHypothetical]

/-- The position of a modifier's bit. -/
def position : Flag → UInt64
  | isPublic => 0
  | isPrivate => 1
  | isProtected => 2
  | isStatic => 3
  | isFinal => 4
  | isInterface => 9
  | isAbstract => 10
  | isSynthetic => 12
  | isAnnotationType => 13
  | isEnum => 14
  | isAcyclic => 27
  | isHypothetical => 37

def text : Flag → String
  | isPublic => "PUBLIC"
  | isPrivate => "PRIVATE"
  | isProtected => "PROTECTED"
  | isStatic => "STATIC"
  | isFinal => "FINAL"
  | isInterface => "INTERFACE"
  | isAbstract => "ABSTRACT"
  | isSynthetic => "SYNTHETIC"
  | isAnnotationType => "ANNOTATION"
  | isEnum => "ENUM"
  | isAcyclic => "ACYCLIC"
  | isHypothetical => "HYPOTHETICAL"

/-- The modifier with a given name. -/
def ofText? (s : String) : Option Flag := all.find? fun f => decide (f.text = s)

end Flag

def empty : Modifiers := ⟨0⟩

/-- The modifiers with exactly one bit set. -/
def single (f : Flag) : Modifiers := ⟨1 <<< f.position⟩

instance : Union Modifiers := ⟨fun a b => ⟨a.bits ||| b.bits⟩⟩

instance : Inter Modifiers := ⟨fun a b => ⟨a.bits &&& b.bits⟩⟩

instance : SDiff Modifiers := ⟨fun a b => ⟨a.bits &&& ~~~b.bits⟩⟩

instance : XorOp Modifiers := ⟨fun a b => ⟨a.bits ^^^ b.bits⟩⟩

def ofFlags (fs : List Flag) : Modifiers := fs.foldl (fun m f => m ∪ single f) empty

/-- Every named modifier at once. -/
def known : Modifiers := ofFlags Flag.all

/-- Everything but `m`, among the named modifiers. -/
def complement (m : Modifiers) : Modifiers := known \ m

/-- The named modifiers of `m`. -/
def named (m : Modifiers) : Modifiers := m ∩ known

def isEmpty (m : Modifiers) : Bool := decide (m.bits = 0)

/-- Every bit of `b` is set in `a`. -/
def includes (a b : Modifiers) : Bool := decide (a ∩ b = b)

/-- Some bit is set in both. -/
def meets (a b : Modifiers) : Bool := !(a ∩ b).isEmpty

/-- The named modifiers set in `m`, by position. -/
def flags (m : Modifiers) : List Flag := Flag.all.filter fun f => m.includes (single f)

/-- The bits as a hexadecimal number. -/
def hex (m : Modifiers) : String := "0x" ++ String.ofList (Nat.toDigits 16 m.bits.toNat)

/-- The value of a hexadecimal digit. -/
def hexDigit? (c : Char) : Option Nat :=
  if '0' ≤ c ∧ c ≤ '9' then some (c.toNat - '0'.toNat)
  else if 'a' ≤ c ∧ c ≤ 'f' then some (c.toNat - 'a'.toNat + 10)
  else if 'A' ≤ c ∧ c ≤ 'F' then some (c.toNat - 'A'.toNat + 10)
  else none

/-- The value of hexadecimal digits, of which there must be one at least. -/
def hexValue? : List Char → Option Nat
  | [] => .none
  | digits => (digits.mapM hexDigit?).map fun ds => ds.foldl (fun n d => n * 16 + d) 0

/-- Reads the bits from a hexadecimal number with its `0x`, which must fit in 64 bits. A plus sign may
stand in front of the digits. -/
def ofHex? (s : String) : Option Modifiers := do
  let n ← match s.toList with
    | '0' :: 'x' :: '+' :: digits => hexValue? digits
    | '0' :: 'x' :: digits => hexValue? digits
    | _ => .none
  if n < Nat.pow 2 64 then some ⟨n.toUInt64⟩ else .none

/-- The names of the modifiers set; the remaining bits follow as one number, and an empty word is
the number zero. -/
def describe (m : Modifiers) : String :=
  let rest := m \ known
  let parts := m.flags.map Flag.text ++ (if rest.isEmpty then [] else [rest.hex])
  "Flags(" ++ (if parts.isEmpty then empty.hex else " | ".intercalate parts) ++ ")"

end Modifiers

end SymbolTable
