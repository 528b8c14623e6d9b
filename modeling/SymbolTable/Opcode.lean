/-
Opcodes attached to the built-in operators.

Codes below 256 are instructions of the machine. Codes from 256 up are
pseudo-instructions, which code generation expands.
-/

namespace SymbolTable

inductive Opcode where
  /-- Does nothing (unary plus). -/
  | nop
  | iadd
  | ladd
  | fadd
  | dadd
  | isub
  | lsub
  | fsub
  | dsub
  | imul
  | lmul
  | fmul
  | dmul
  | idiv
  | ldiv
  | fdiv
  | ddiv
  | imod
  | lmod
  | fmod
  | dmod
  | ineg
  | lneg
  | fneg
  | dneg
  | ishl
  | lshl
  | ishr
  | lshr
  | iushr
  | lushr
  | iand
  | land
  | ior
  | lor
  | ixor
  | lxor
  /-- Pushes the sign of the difference of two longs. -/
  | lcmp
  /-- Compares floats; NaN counts as less. -/
  | fcmpl
  /-- Compares floats; NaN counts as greater. -/
  | fcmpg
  /-- Compares doubles; NaN counts as less. -/
  | dcmpl
  /-- Compares doubles; NaN counts as greater. -/
  | dcmpg
  /-- Branches if the value is zero; the next five likewise compare it with zero. -/
  | ifeq
  | ifne
  | iflt
  | ifge
  | ifgt
  | ifle
  /-- Branches if two ints are equal; the next five likewise compare two ints. -/
  | ifIcmpeq
  | ifIcmpne
  | ifIcmplt
  | ifIcmpge
  | ifIcmpgt
  | ifIcmple
  /-- Branches if two references are identical. -/
  | ifAcmpeq
  /-- Branches if two references differ. -/
  | ifAcmpne
  /-- The first of the pseudo-instructions, which code generation expands. -/
  | stringAdd
  | boolNot
  | boolAnd
  | boolOr
  /-- Shifts an int by a long; the next five are the other shifts by a long. -/
  | ishll
  | lshll
  | ishrl
  | lshrl
  | iushrl
  | lushrl
  | nullCheck
  /-- Marks operands that must be rejected. -/
  | error
  deriving DecidableEq, Repr

namespace Opcode

/-- Every opcode, by code. -/
def all : List Opcode :=
  [nop, iadd, ladd, fadd, dadd, isub, lsub, fsub, dsub, imul, lmul, fmul, dmul, idiv, ldiv, fdiv,
    ddiv, imod, lmod, fmod, dmod, ineg, lneg, fneg, dneg, ishl, lshl, ishr, lshr, iushr, lushr,
    iand, land, ior, lor, ixor, lxor, lcmp, fcmpl, fcmpg, dcmpl, dcmpg, ifeq, ifne, iflt, ifge,
    ifgt, ifle, ifIcmpeq, ifIcmpne, ifIcmplt, ifIcmpge, ifIcmpgt, ifIcmple, ifAcmpeq, ifAcmpne,
    stringAdd, boolNot, boolAnd, boolOr, ishll, lshll, ishrl, lshrl, iushrl, lushrl, nullCheck,
    error]

/-- The number of the instruction. -/
def code : Opcode → Nat
  | nop => 0
  | iadd => 96
  | ladd => 97
  | fadd => 98
  | dadd => 99
  | isub => 100
  | lsub => 101
  | fsub => 102
  | dsub => 103
  | imul => 104
  | lmul => 105
  | fmul => 106
  | dmul => 107
  | idiv => 108
  | ldiv => 109
  | fdiv => 110
  | ddiv => 111
  | imod => 112
  | lmod => 113
  | fmod => 114
  | dmod => 115
  | ineg => 116
  | lneg => 117
  | fneg => 118
  | dneg => 119
  | ishl => 120
  | lshl => 121
  | ishr => 122
  | lshr => 123
  | iushr => 124
  | lushr => 125
  | iand => 126
  | land => 127
  | ior => 128
  | lor => 129
  | ixor => 130
  | lxor => 131
  | lcmp => 148
  | fcmpl => 149
  | fcmpg => 150
  | dcmpl => 151
  | dcmpg => 152
  | ifeq => 153
  | ifne => 154
  | iflt => 155
  | ifge => 156
  | ifgt => 157
  | ifle => 158
  | ifIcmpeq => 159
  | ifIcmpne => 160
  | ifIcmplt => 161
  | ifIcmpge => 162
  | ifIcmpgt => 163
  | ifIcmple => 164
  | ifAcmpeq => 165
  | ifAcmpne => 166
  | stringAdd => 256
  | boolNot => 257
  | boolAnd => 258
  | boolOr => 259
  | ishll => 270
  | lshll => 271
  | ishrl => 272
  | lshrl => 273
  | iushrl => 274
  | lushrl => 275
  | nullCheck => 276
  | error => 277

/-- The lower-case mnemonic. -/
def mnemonic : Opcode → String
  | nop => "nop"
  | iadd => "iadd"
  | ladd => "ladd"
  | fadd => "fadd"
  | dadd => "dadd"
  | isub => "isub"
  | lsub => "lsub"
  | fsub => "fsub"
  | dsub => "dsub"
  | imul => "imul"
  | lmul => "lmul"
  | fmul => "fmul"
  | dmul => "dmul"
  | idiv => "idiv"
  | ldiv => "ldiv"
  | fdiv => "fdiv"
  | ddiv => "ddiv"
  | imod => "imod"
  | lmod => "lmod"
  | fmod => "fmod"
  | dmod => "dmod"
  | ineg => "ineg"
  | lneg => "lneg"
  | fneg => "fneg"
  | dneg => "dneg"
  | ishl => "ishl"
  | lshl => "lshl"
  | ishr => "ishr"
  | lshr => "lshr"
  | iushr => "iushr"
  | lushr => "lushr"
  | iand => "iand"
  | land => "land"
  | ior => "ior"
  | lor => "lor"
  | ixor => "ixor"
  | lxor => "lxor"
  | lcmp => "lcmp"
  | fcmpl => "fcmpl"
  | fcmpg => "fcmpg"
  | dcmpl => "dcmpl"
  | dcmpg => "dcmpg"
  | ifeq => "ifeq"
  | ifne => "ifne"
  | iflt => "iflt"
  | ifge => "ifge"
  | ifgt => "ifgt"
  | ifle => "ifle"
  | ifIcmpeq => "if_icmpeq"
  | ifIcmpne => "if_icmpne"
  | ifIcmplt => "if_icmplt"
  | ifIcmpge => "if_icmpge"
  | ifIcmpgt => "if_icmpgt"
  | ifIcmple => "if_icmple"
  | ifAcmpeq => "if_acmpeq"
  | ifAcmpne => "if_acmpne"
  | stringAdd => "string_add"
  | boolNot => "bool_not"
  | boolAnd => "bool_and"
  | boolOr => "bool_or"
  | ishll => "ishll"
  | lshll => "lshll"
  | ishrl => "ishrl"
  | lshrl => "lshrl"
  | iushrl => "iushrl"
  | lushrl => "lushrl"
  | nullCheck => "nullchk"
  | error => "error"

def ofMnemonic? (s : String) : Option Opcode := all.find? fun o => decide (o.mnemonic = s)

/-- A pseudo-instruction rather than one of the machine. -/
def isPseudo (o : Opcode) : Bool := decide (256 ≤ o.code)

end Opcode

/-- How an operator is realized. -/
inductive OperatorCode where
  | single (op : Opcode)
  /-- Compare the operands, then branch on the outcome. -/
  | compareBranch (compare branch : Opcode)
  deriving DecidableEq, Repr

namespace OperatorCode

/-- The instruction that produces the result: the branch of a pair. -/
def final : OperatorCode → Opcode
  | single op => op
  | compareBranch _ branch => branch

/-- The operands must be rejected. -/
def isError (c : OperatorCode) : Bool := decide (c = single .error)

def text : OperatorCode → String
  | single op => op.mnemonic
  | compareBranch compare branch => compare.mnemonic ++ "+" ++ branch.mnemonic

end OperatorCode

end SymbolTable
