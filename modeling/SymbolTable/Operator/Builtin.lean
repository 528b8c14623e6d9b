/-
The built-in operators of the language.

Each row gives the operator's text, the kinds of its operands and of its
result, and its code. Concatenation has rows that reject: the null type
combines with strings and nothing else, and without those rows `null + 1`
would pass for a concatenation.
-/
import SymbolTable.Operator
import SymbolTable.Primitives

namespace SymbolTable

/-- The types that built-in operators work on. -/
inductive OperandKind where
  | byte
  | char
  | short
  | int
  | long
  | float
  | double
  | boolean
  | bot
  | object
  | string
  deriving DecidableEq, Repr

namespace OperandKind

/-- The primitive tag of an operand; the root object type and strings have none. -/
def tag? : OperandKind → Option Tag
  | byte => some .byte
  | char => some .char
  | short => some .short
  | int => some .int
  | long => some .long
  | float => some .float
  | double => some .double
  | boolean => some .boolean
  | bot => some .bot
  | object | string => none

/-- The primitive operands, in the order in which they are looked for. -/
def primitives : List OperandKind := [byte, char, short, int, long, float, double, boolean, bot]

end OperandKind

structure OperatorRow where
  name : Name
  params : List OperandKind
  result : OperandKind
  code : OperatorCode
  deriving DecidableEq, Repr

namespace Builtin

open OperandKind Opcode

/-- The name of the hidden operator for implicit null checks. -/
def nullCheckName : Name := "<*nullchk*>"

def unary (name : Name) (operand : OperandKind) (op : Opcode) : OperatorRow :=
  ⟨name, [operand], operand, .single op⟩

def binary (name : Name) (left right result : OperandKind) (op : Opcode) : OperatorRow :=
  ⟨name, [left, right], result, .single op⟩

/-- Both operands and the result are of one kind. -/
def uniform (name : Name) (operand : OperandKind) (op : Opcode) : OperatorRow :=
  binary name operand operand operand op

/-- The numeric kinds that arithmetic is done in. -/
def wide : List OperandKind := [double, float, long, int]

/-- The kinds that widen to `int`. -/
def narrow : List OperandKind := [char, short, byte]

/-- The kinds that a string concatenates with, besides strings, objects and null. -/
def scalars : List OperandKind := [int, long, float, double, boolean]

/-- One row per wide kind. -/
def overWide (row : OperandKind → Opcode → OperatorRow) (ops : List Opcode) : List OperatorRow :=
  List.zipWith row wide ops

def signs : List OperatorRow :=
  overWide (unary "+") [nop, nop, nop, nop] ++ overWide (unary "-") [dneg, fneg, lneg, ineg]
    ++ [unary "~" long lxor, unary "~" int ixor]

def steps : List OperatorRow :=
  overWide (unary "++") [dadd, fadd, ladd, iadd] ++ narrow.map (unary "++" · iadd)
    ++ overWide (unary "--") [dsub, fsub, lsub, isub] ++ narrow.map (unary "--" · isub)

def unaries : List OperatorRow := signs ++ steps ++ [unary "!" boolean boolNot]

def nullCheck : OperatorRow := unary nullCheckName object Opcode.nullCheck

def concatenations : List OperatorRow :=
  [binary "+" string object string stringAdd, binary "+" object string string stringAdd,
      binary "+" string string string stringAdd]
    ++ (scalars ++ [bot]).map (binary "+" string · string stringAdd)
    ++ (scalars ++ [bot]).map (binary "+" · string string stringAdd)

/-- The null type with anything but a string. -/
def rejections : List OperatorRow :=
  [binary "+" bot bot bot Opcode.error]
    ++ (scalars ++ [object]).map (binary "+" bot · bot Opcode.error)
    ++ (scalars ++ [object]).map (binary "+" · bot bot Opcode.error)

def arithmetic : List OperatorRow :=
  overWide (uniform "+") [dadd, fadd, ladd, iadd] ++ overWide (uniform "-") [dsub, fsub, lsub, isub]
    ++ overWide (uniform "*") [dmul, fmul, lmul, imul]
    ++ overWide (uniform "/") [ddiv, fdiv, ldiv, idiv]
    ++ overWide (uniform "%") [dmod, fmod, lmod, imod]

/-- An operator on bits and on truth values. -/
def bitwiseRows (name : Name) (intOp longOp : Opcode) : List OperatorRow :=
  [uniform name boolean intOp, uniform name long longOp, uniform name int intOp]

def bitwise : List OperatorRow :=
  bitwiseRows "&" iand land ++ bitwiseRows "|" ior lor ++ bitwiseRows "^" ixor lxor

/-- A shift; the result is of the left operand's kind. -/
def shiftRows (name : Name) (longByLong intByLong longByInt intByInt : Opcode) :
    List OperatorRow :=
  [binary name long long long longByLong, binary name int long int intByLong,
    binary name long int long longByInt, binary name int int int intByInt]

def shifts : List OperatorRow :=
  shiftRows "<<" lshll ishll lshl ishl ++ shiftRows ">>" lshrl ishrl lshr ishr
    ++ shiftRows ">>>" lushrl iushrl lushr iushr

/-- The comparison of two doubles, floats or longs: compare, then branch. -/
def comparePairs (name : Name) (dcmp fcmp branch : Opcode) : List OperatorRow :=
  [(double, dcmp), (float, fcmp), (long, lcmp)].map fun (operand, compare) =>
    ⟨name, [operand, operand], boolean, .compareBranch compare branch⟩

def relationRows (name : Name) (dcmp fcmp branch intBranch : Opcode) : List OperatorRow :=
  comparePairs name dcmp fcmp branch ++ [binary name int int boolean intBranch]

def equalityRows (name : Name) (refBranch intBranch branch : Opcode) : List OperatorRow :=
  [binary name object object boolean refBranch, binary name boolean boolean boolean intBranch]
    ++ comparePairs name dcmpl fcmpl branch ++ [binary name int int boolean intBranch]

/-- The compare instruction of a relation is the one that makes it fail on NaN. -/
def comparisons : List OperatorRow :=
  relationRows "<" dcmpg fcmpg iflt ifIcmplt ++ relationRows ">" dcmpl fcmpl ifgt ifIcmpgt
    ++ relationRows "<=" dcmpg fcmpg ifle ifIcmple ++ relationRows ">=" dcmpl fcmpl ifge ifIcmpge
    ++ equalityRows "==" ifAcmpeq ifIcmpeq ifeq ++ equalityRows "!=" ifAcmpne ifIcmpne ifne

def connectives : List OperatorRow := [uniform "&&" boolean boolAnd, uniform "||" boolean boolOr]

/-- What follows the null check. -/
def binaries : List OperatorRow :=
  concatenations ++ rejections ++ arithmetic ++ bitwise ++ shifts ++ comparisons ++ connectives

/-- Every built-in operator, in order of entry. -/
def rows : List OperatorRow := unaries ++ [nullCheck] ++ binaries

end Builtin

/-- The types of the operands, in one table. -/
structure OperandTypes where
  primitives : Primitives
  object : TypeId
  string : TypeId

namespace OperandTypes

def typeOf (t : OperandTypes) (k : OperandKind) : TypeId :=
  match k with
  | .object => t.object
  | .string => t.string
  | _ => (k.tag?.bind t.primitives.type?).getD .absent

/-- Every primitive operand is registered; the first that is not is the error. -/
def check (t : OperandTypes) : Except TableError Unit :=
  OperandKind.primitives.forM fun k =>
    match k.tag? with
    | some tag => (t.primitives.require tag).map fun _ => ()
    | none => .ok ()

def entry (t : OperandTypes) (row : OperatorRow) : OperatorEntry :=
  ⟨row.name, row.params.map t.typeOf, t.typeOf row.result, row.code⟩

end OperandTypes

namespace World

/-- Enters every built-in operator and gives the hidden null check. Nothing is entered if a
primitive operand is missing. -/
def enterBuiltins (types : OperandTypes) (predef methodClass : SymbolId) (w : World) :
    Except TableError SymbolId × World :=
  match types.check with
  | .error e => (.error e, w)
  | .ok () =>
    match w.enterOperators predef methodClass (Builtin.unaries.map types.entry) with
    | (.error e, w) => (.error e, w)
    | (.ok _, w) =>
      match w.enterOperator predef methodClass (types.entry Builtin.nullCheck) with
      | (.error e, w) => (.error e, w)
      | (.ok nullCheck, w) =>
        match w.enterOperators predef methodClass (Builtin.binaries.map types.entry) with
        | (.error e, w) => (.error e, w)
        | (.ok _, w) => (.ok nullCheck, w)

end World

end SymbolTable
