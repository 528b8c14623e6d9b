/-
The operators a table has.

`Rule` says which operators there are, rule by rule: the name, the kinds of
the operands, the kind of the result and the code. The rows that are entered
are exactly those the rules allow, each of them once, and the kinds stand
for types that all differ. So looking an operator up finds what the rules
say and nothing else, in every session.
-/
import Mathlib.Data.List.Nodup
import SymbolTable.Proofs.Session

namespace SymbolTable

namespace Builtin

open OperandKind Opcode

/-! ## Rules -/

/-- The instructions of one operation, by the kind it is done in. -/
structure Forms where
  double : Opcode
  float : Opcode
  long : Opcode
  int : Opcode

def Forms.at? (f : Forms) : OperandKind → Option Opcode
  | .double => some f.double
  | .float => some f.float
  | .long => some f.long
  | .int => some f.int
  | _ => none

/-- Likewise, with the narrow kinds taken for `int`. -/
def Forms.widened? (f : Forms) : OperandKind → Option Opcode
  | .char | .short | .byte => some f.int
  | k => f.at? k

inductive Arithmetic : Name → Forms → Prop
  | add : Arithmetic "+" ⟨dadd, fadd, ladd, iadd⟩
  | sub : Arithmetic "-" ⟨dsub, fsub, lsub, isub⟩
  | mul : Arithmetic "*" ⟨dmul, fmul, lmul, imul⟩
  | div : Arithmetic "/" ⟨ddiv, fdiv, ldiv, idiv⟩
  | mod : Arithmetic "%" ⟨dmod, fmod, lmod, imod⟩

/-- Operators on bits, with the instructions for ints and for longs. -/
inductive Bitwise : Name → (int long : Opcode) → Prop
  | and : Bitwise "&" iand land
  | or : Bitwise "|" ior lor
  | xor : Bitwise "^" ixor lxor

/-- Shifts, with the kinds of both operands and the instruction. -/
inductive Shift : Name → (left right : OperandKind) → Opcode → Prop
  | leftLongLong : Shift "<<" .long .long lshll
  | leftIntLong : Shift "<<" .int .long ishll
  | leftLongInt : Shift "<<" .long .int lshl
  | leftIntInt : Shift "<<" .int .int ishl
  | rightLongLong : Shift ">>" .long .long lshrl
  | rightIntLong : Shift ">>" .int .long ishrl
  | rightLongInt : Shift ">>" .long .int lshr
  | rightIntInt : Shift ">>" .int .int ishr
  | unsignedLongLong : Shift ">>>" .long .long lushrl
  | unsignedIntLong : Shift ">>>" .int .long iushrl
  | unsignedLongInt : Shift ">>>" .long .int lushr
  | unsignedIntInt : Shift ">>>" .int .int iushr

/-- Comparisons: how doubles and floats are compared, the branch that follows, and the branch that
compares ints by itself. -/
inductive Comparison : Name → (double float branch int : Opcode) → Prop
  | lt : Comparison "<" dcmpg fcmpg iflt ifIcmplt
  | gt : Comparison ">" dcmpl fcmpl ifgt ifIcmpgt
  | le : Comparison "<=" dcmpg fcmpg ifle ifIcmple
  | ge : Comparison ">=" dcmpl fcmpl ifge ifIcmpge
  | eq : Comparison "==" dcmpl fcmpl ifeq ifIcmpeq
  | ne : Comparison "!=" dcmpl fcmpl ifne ifIcmpne

/-- The built-in operators: the name, the kinds of the operands and of the result, the code. -/
inductive Rule : Name → List OperandKind → OperandKind → OperatorCode → Prop
  | plus {k op} (h : Forms.at? ⟨nop, nop, nop, nop⟩ k = some op) : Rule "+" [k] k (.single op)
  | minus {k op} (h : Forms.at? ⟨dneg, fneg, lneg, ineg⟩ k = some op) : Rule "-" [k] k (.single op)
  | complementLong : Rule "~" [.long] .long (.single lxor)
  | complementInt : Rule "~" [.int] .int (.single ixor)
  | increment {k op} (h : Forms.widened? ⟨dadd, fadd, ladd, iadd⟩ k = some op) :
      Rule "++" [k] k (.single op)
  | decrement {k op} (h : Forms.widened? ⟨dsub, fsub, lsub, isub⟩ k = some op) :
      Rule "--" [k] k (.single op)
  | not : Rule "!" [.boolean] .boolean (.single boolNot)
  | nullCheck : Rule "<*nullchk*>" [.object] .object (.single Opcode.nullCheck)
  /-- A string with anything but a narrow kind is a concatenation. -/
  | joinLeft {k} (h : k ∈ [.string, .object, .int, .long, .float, .double, .boolean, .bot]) :
      Rule "+" [.string, k] .string (.single stringAdd)
  | joinRight {k} (h : k ∈ [.string, .object, .int, .long, .float, .double, .boolean, .bot]) :
      Rule "+" [k, .string] .string (.single stringAdd)
  /-- The null type with anything but a string is rejected. -/
  | rejectLeft {k} (h : k ∈ [.bot, .object, .int, .long, .float, .double, .boolean]) :
      Rule "+" [.bot, k] .bot (.single Opcode.error)
  | rejectRight {k} (h : k ∈ [.bot, .object, .int, .long, .float, .double, .boolean]) :
      Rule "+" [k, .bot] .bot (.single Opcode.error)
  | arithmetic {name forms k op} (h : Arithmetic name forms) (hk : forms.at? k = some op) :
      Rule name [k, k] k (.single op)
  | bitwiseBoolean {name int long} (h : Bitwise name int long) :
      Rule name [.boolean, .boolean] .boolean (.single int)
  | bitwiseLong {name int long} (h : Bitwise name int long) :
      Rule name [.long, .long] .long (.single long)
  | bitwiseInt {name int long} (h : Bitwise name int long) : Rule name [.int, .int] .int (.single int)
  /-- The result of a shift is of the left operand's kind. -/
  | shift {name left right op} (h : Shift name left right op) :
      Rule name [left, right] left (.single op)
  | compareDouble {name double float branch int} (h : Comparison name double float branch int) :
      Rule name [.double, .double] .boolean (.compareBranch double branch)
  | compareFloat {name double float branch int} (h : Comparison name double float branch int) :
      Rule name [.float, .float] .boolean (.compareBranch float branch)
  | compareLong {name double float branch int} (h : Comparison name double float branch int) :
      Rule name [.long, .long] .boolean (.compareBranch lcmp branch)
  | compareInt {name double float branch int} (h : Comparison name double float branch int) :
      Rule name [.int, .int] .boolean (.single int)
  | sameBoolean : Rule "==" [.boolean, .boolean] .boolean (.single ifIcmpeq)
  | differentBoolean : Rule "!=" [.boolean, .boolean] .boolean (.single ifIcmpne)
  | sameObject : Rule "==" [.object, .object] .boolean (.single ifAcmpeq)
  | differentObject : Rule "!=" [.object, .object] .boolean (.single ifAcmpne)
  | and : Rule "&&" [.boolean, .boolean] .boolean (.single boolAnd)
  | or : Rule "||" [.boolean, .boolean] .boolean (.single boolOr)

/-! ## Rows -/

def Allowed (row : OperatorRow) : Prop := Rule row.name row.params row.result row.code

variable {row : OperatorRow}

theorem mem_overWide {make : OperandKind → Opcode → OperatorRow} {d f l i : Opcode} :
    row ∈ overWide make [d, f, l, i] ↔
      ∃ k op, Forms.at? ⟨d, f, l, i⟩ k = some op ∧ row = make k op := by
  constructor
  · intro h
    simp only [overWide, wide, List.zipWith_cons_cons, List.zipWith_nil_left, List.mem_cons,
      List.not_mem_nil, or_false] at h
    rcases h with h | h | h | h
    · exact ⟨double, d, rfl, h⟩
    · exact ⟨float, f, rfl, h⟩
    · exact ⟨long, l, rfl, h⟩
    · exact ⟨int, i, rfl, h⟩
  · intro h
    obtain ⟨k, op, hk, rfl⟩ := h
    cases k <;> cases hk <;> simp [overWide, wide]

/-- The narrow kinds go by the instruction for ints. -/
theorem mem_overWide_narrow {make : OperandKind → Opcode → OperatorRow} {d f l i : Opcode} :
    row ∈ overWide make [d, f, l, i] ∨ row ∈ narrow.map (make · i) ↔
      ∃ k op, Forms.widened? ⟨d, f, l, i⟩ k = some op ∧ row = make k op := by
  simp only [mem_overWide, List.mem_map, narrow, List.mem_cons, List.not_mem_nil, or_false]
  constructor
  · intro h
    rcases h with ⟨k, op, hk, rfl⟩ | ⟨k, rfl | rfl | rfl, rfl⟩
    · exact ⟨k, op, by cases k <;> cases hk <;> rfl, rfl⟩
    · exact ⟨char, i, rfl, rfl⟩
    · exact ⟨short, i, rfl, rfl⟩
    · exact ⟨byte, i, rfl, rfl⟩
  · intro h
    obtain ⟨k, op, hk, rfl⟩ := h
    cases k with
    | char => cases hk; exact .inr ⟨char, .inl rfl, rfl⟩
    | short => cases hk; exact .inr ⟨short, .inr (.inl rfl), rfl⟩
    | byte => cases hk; exact .inr ⟨byte, .inr (.inr rfl), rfl⟩
    | double => exact .inl ⟨double, op, hk, rfl⟩
    | float => exact .inl ⟨float, op, hk, rfl⟩
    | long => exact .inl ⟨long, op, hk, rfl⟩
    | int => exact .inl ⟨int, op, hk, rfl⟩
    | boolean | bot | object | string => cases hk

theorem mem_signs : row ∈ signs ↔
    (∃ k op, Forms.at? ⟨nop, nop, nop, nop⟩ k = some op ∧ row = unary "+" k op) ∨
      (∃ k op, Forms.at? ⟨dneg, fneg, lneg, ineg⟩ k = some op ∧ row = unary "-" k op) ∨
      row = unary "~" long lxor ∨ row = unary "~" int ixor := by
  simp [signs, mem_overWide]

theorem mem_steps : row ∈ steps ↔
    (∃ k op, Forms.widened? ⟨dadd, fadd, ladd, iadd⟩ k = some op ∧ row = unary "++" k op) ∨
      ∃ k op, Forms.widened? ⟨dsub, fsub, lsub, isub⟩ k = some op ∧ row = unary "--" k op := by
  simp only [steps, List.mem_append, ← mem_overWide_narrow, or_assoc]

theorem mem_concatenations : row ∈ concatenations ↔
    ∃ k ∈ [string, object, int, long, float, double, boolean, bot],
      row = binary "+" string k string stringAdd ∨ row = binary "+" k string string stringAdd := by
  simp only [concatenations, scalars, List.mem_append, List.mem_cons, List.map_append, List.map_cons,
    List.map_nil, List.not_mem_nil, or_false, exists_eq_or_imp, exists_eq_left]
  tauto

theorem mem_rejections : row ∈ rejections ↔
    ∃ k ∈ [bot, object, int, long, float, double, boolean],
      row = binary "+" bot k bot Opcode.error ∨ row = binary "+" k bot bot Opcode.error := by
  simp only [rejections, scalars, List.mem_append, List.mem_cons, List.map_append, List.map_cons,
    List.map_nil, List.not_mem_nil, or_false, exists_eq_or_imp, exists_eq_left]
  tauto

theorem mem_arithmetic : row ∈ arithmetic ↔ ∃ name forms k op, Arithmetic name forms ∧
    forms.at? k = some op ∧ row = uniform name k op := by
  simp only [arithmetic, List.mem_append, mem_overWide]
  constructor
  · intro h
    rcases h with (((⟨k, op, hk, rfl⟩ | ⟨k, op, hk, rfl⟩) | ⟨k, op, hk, rfl⟩) | ⟨k, op, hk, rfl⟩) |
      ⟨k, op, hk, rfl⟩
    · exact ⟨_, _, k, op, .add, hk, rfl⟩
    · exact ⟨_, _, k, op, .sub, hk, rfl⟩
    · exact ⟨_, _, k, op, .mul, hk, rfl⟩
    · exact ⟨_, _, k, op, .div, hk, rfl⟩
    · exact ⟨_, _, k, op, .mod, hk, rfl⟩
  · intro h
    obtain ⟨name, forms, k, op, hname, hk, rfl⟩ := h
    cases hname with
    | add => exact .inl (.inl (.inl (.inl ⟨k, op, hk, rfl⟩)))
    | sub => exact .inl (.inl (.inl (.inr ⟨k, op, hk, rfl⟩)))
    | mul => exact .inl (.inl (.inr ⟨k, op, hk, rfl⟩))
    | div => exact .inl (.inr ⟨k, op, hk, rfl⟩)
    | mod => exact .inr ⟨k, op, hk, rfl⟩

theorem mem_bitwise : row ∈ bitwise ↔ ∃ name int long, Bitwise name int long ∧
    row ∈ bitwiseRows name int long := by
  simp only [bitwise, List.mem_append]
  constructor
  · intro h
    rcases h with (h | h) | h
    · exact ⟨_, _, _, .and, h⟩
    · exact ⟨_, _, _, .or, h⟩
    · exact ⟨_, _, _, .xor, h⟩
  · intro h
    obtain ⟨name, int, long, hname, h⟩ := h
    cases hname with
    | and => exact .inl (.inl h)
    | or => exact .inl (.inr h)
    | xor => exact .inr h

theorem mem_shifts : row ∈ shifts ↔ ∃ name left right op, Shift name left right op ∧
    row = binary name left right left op := by
  simp only [shifts, shiftRows, List.mem_append, List.mem_cons, List.not_mem_nil, or_false]
  constructor
  · intro h
    rcases h with ((rfl | rfl | rfl | rfl) | (rfl | rfl | rfl | rfl)) | (rfl | rfl | rfl | rfl)
    all_goals exact ⟨_, _, _, _, by constructor, rfl⟩
  · intro h
    obtain ⟨name, left, right, op, hname, rfl⟩ := h
    cases hname <;> simp

theorem mem_comparisons : row ∈ comparisons ↔
    (∃ name dcmp fcmp branch int, Comparison name dcmp fcmp branch int ∧
        row ∈ relationRows name dcmp fcmp branch int) ∨
      row = binary "==" object object boolean ifAcmpeq ∨
      row = binary "==" boolean boolean boolean ifIcmpeq ∨
      row = binary "!=" object object boolean ifAcmpne ∨
      row = binary "!=" boolean boolean boolean ifIcmpne := by
  have hequality : ∀ name ref int branch, row ∈ equalityRows name ref int branch ↔
      row ∈ relationRows name dcmpl fcmpl branch int ∨
        row = binary name object object boolean ref ∨ row = binary name boolean boolean boolean int := by
    intro name ref int branch
    simp only [equalityRows, relationRows, List.mem_append, List.mem_cons, List.not_mem_nil, or_false]
    tauto
  simp only [comparisons, List.mem_append, hequality]
  constructor
  · intro h
    rcases h with ((((h | h) | h) | h) | h | h | h) | h | h | h
    · exact .inl ⟨_, _, _, _, _, .lt, h⟩
    · exact .inl ⟨_, _, _, _, _, .gt, h⟩
    · exact .inl ⟨_, _, _, _, _, .le, h⟩
    · exact .inl ⟨_, _, _, _, _, .ge, h⟩
    · exact .inl ⟨_, _, _, _, _, .eq, h⟩
    · exact .inr (.inl h)
    · exact .inr (.inr (.inl h))
    · exact .inl ⟨_, _, _, _, _, .ne, h⟩
    · exact .inr (.inr (.inr (.inl h)))
    · exact .inr (.inr (.inr (.inr h)))
  · intro h
    rcases h with ⟨name, dcmp, fcmp, branch, int, hname, h⟩ | h
    · cases hname <;> simp [h]
    · rcases h with h | h | h | h <;> simp [h]

def blocks : List (List OperatorRow) :=
  [signs, steps, [unary "!" boolean boolNot], [nullCheck], concatenations, rejections, arithmetic,
    bitwise, shifts, comparisons, connectives]

theorem rows_eq_flatten : rows = blocks.flatten := by
  simp [rows, unaries, binaries, blocks]

theorem allowed_of_mem (h : row ∈ rows) : Allowed row := by
  rw [rows_eq_flatten, List.mem_flatten] at h
  obtain ⟨block, hb, h⟩ := h
  simp only [blocks, List.mem_cons, List.not_mem_nil, or_false] at hb
  rcases hb with rfl | rfl | rfl | rfl | rfl | rfl | rfl | rfl | rfl | rfl | rfl
  · rcases mem_signs.1 h with ⟨k, op, hk, rfl⟩ | ⟨k, op, hk, rfl⟩ | rfl | rfl
    · exact .plus hk
    · exact .minus hk
    · exact .complementLong
    · exact .complementInt
  · rcases mem_steps.1 h with ⟨k, op, hk, rfl⟩ | ⟨k, op, hk, rfl⟩
    · exact .increment hk
    · exact .decrement hk
  · rw [List.mem_singleton.1 h]
    exact .not
  · rw [List.mem_singleton.1 h]
    exact .nullCheck
  · obtain ⟨k, hk, rfl | rfl⟩ := mem_concatenations.1 h
    · exact .joinLeft hk
    · exact .joinRight hk
  · obtain ⟨k, hk, rfl | rfl⟩ := mem_rejections.1 h
    · exact .rejectLeft hk
    · exact .rejectRight hk
  · obtain ⟨name, forms, k, op, hname, hk, rfl⟩ := mem_arithmetic.1 h
    exact .arithmetic hname hk
  · obtain ⟨name, int, long, hname, h⟩ := mem_bitwise.1 h
    simp only [bitwiseRows, List.mem_cons, List.not_mem_nil, or_false] at h
    rcases h with rfl | rfl | rfl
    · exact .bitwiseBoolean hname
    · exact .bitwiseLong hname
    · exact .bitwiseInt hname
  · obtain ⟨name, left, right, op, hname, rfl⟩ := mem_shifts.1 h
    exact .shift hname
  · rcases mem_comparisons.1 h with ⟨name, dcmp, fcmp, branch, int, hname, h⟩ | rfl | rfl | rfl | rfl
    · simp only [relationRows, comparePairs, List.map_cons, List.map_nil, List.mem_append,
        List.mem_cons, List.not_mem_nil, or_false] at h
      rcases h with (rfl | rfl | rfl) | rfl
      · exact .compareDouble hname
      · exact .compareFloat hname
      · exact .compareLong hname
      · exact .compareInt hname
    · exact .sameObject
    · exact .sameBoolean
    · exact .differentObject
    · exact .differentBoolean
  · simp only [connectives, List.mem_cons, List.not_mem_nil, or_false] at h
    rcases h with rfl | rfl
    · exact .and
    · exact .or

theorem mem_rows (block : List OperatorRow) (hb : block ∈ blocks) (h : row ∈ block) :
    row ∈ rows := by
  rw [rows_eq_flatten]
  exact List.mem_flatten.2 ⟨block, hb, h⟩

theorem mem_bitwise_of {name : Name} {int long : Opcode} (hname : Bitwise name int long)
    (h : row ∈ bitwiseRows name int long) : row ∈ bitwise :=
  mem_bitwise.2 ⟨name, int, long, hname, h⟩

theorem mem_comparisons_of {name : Name} {dcmp fcmp branch int : Opcode}
    (hname : Comparison name dcmp fcmp branch int)
    (h : row ∈ relationRows name dcmp fcmp branch int) : row ∈ comparisons :=
  mem_comparisons.2 (.inl ⟨name, dcmp, fcmp, branch, int, hname, h⟩)

theorem mem_of_rule {name : Name} {params : List OperandKind} {result : OperandKind}
    {code : OperatorCode} (h : Rule name params result code) :
    (⟨name, params, result, code⟩ : OperatorRow) ∈ rows := by
  cases h with
  | plus hk => exact mem_rows signs (by simp [blocks]) (mem_signs.2 (.inl ⟨_, _, hk, rfl⟩))
  | minus hk => exact mem_rows signs (by simp [blocks]) (mem_signs.2 (.inr (.inl ⟨_, _, hk, rfl⟩)))
  | complementLong => exact mem_rows signs (by simp [blocks]) (mem_signs.2 (.inr (.inr (.inl rfl))))
  | complementInt => exact mem_rows signs (by simp [blocks]) (mem_signs.2 (.inr (.inr (.inr rfl))))
  | increment hk => exact mem_rows steps (by simp [blocks]) (mem_steps.2 (.inl ⟨_, _, hk, rfl⟩))
  | decrement hk => exact mem_rows steps (by simp [blocks]) (mem_steps.2 (.inr ⟨_, _, hk, rfl⟩))
  | not => exact mem_rows [unary "!" boolean boolNot] (by simp [blocks]) (List.mem_singleton.2 rfl)
  | nullCheck => exact mem_rows [nullCheck] (by simp [blocks]) (List.mem_singleton.2 rfl)
  | joinLeft hk =>
    exact mem_rows concatenations (by simp [blocks]) (mem_concatenations.2 ⟨_, hk, .inl rfl⟩)
  | joinRight hk =>
    exact mem_rows concatenations (by simp [blocks]) (mem_concatenations.2 ⟨_, hk, .inr rfl⟩)
  | rejectLeft hk =>
    exact mem_rows rejections (by simp [blocks]) (mem_rejections.2 ⟨_, hk, .inl rfl⟩)
  | rejectRight hk =>
    exact mem_rows rejections (by simp [blocks]) (mem_rejections.2 ⟨_, hk, .inr rfl⟩)
  | arithmetic hname hk =>
    exact mem_rows arithmetic (by simp [blocks]) (mem_arithmetic.2 ⟨_, _, _, _, hname, hk, rfl⟩)
  | bitwiseBoolean hname =>
    exact mem_rows bitwise (by simp [blocks])
      (mem_bitwise_of hname (by simp [bitwiseRows, uniform, binary]))
  | bitwiseLong hname =>
    exact mem_rows bitwise (by simp [blocks])
      (mem_bitwise_of hname (by simp [bitwiseRows, uniform, binary]))
  | bitwiseInt hname =>
    exact mem_rows bitwise (by simp [blocks])
      (mem_bitwise_of hname (by simp [bitwiseRows, uniform, binary]))
  | shift hname => exact mem_rows shifts (by simp [blocks]) (mem_shifts.2 ⟨_, _, _, _, hname, rfl⟩)
  | compareDouble hname =>
    exact mem_rows comparisons (by simp [blocks])
      (mem_comparisons_of hname (by simp [relationRows, comparePairs]))
  | compareFloat hname =>
    exact mem_rows comparisons (by simp [blocks])
      (mem_comparisons_of hname (by simp [relationRows, comparePairs]))
  | compareLong hname =>
    exact mem_rows comparisons (by simp [blocks])
      (mem_comparisons_of hname (by simp [relationRows, comparePairs]))
  | compareInt hname =>
    exact mem_rows comparisons (by simp [blocks])
      (mem_comparisons_of hname (by simp [relationRows, binary]))
  | sameBoolean =>
    exact mem_rows comparisons (by simp [blocks]) (mem_comparisons.2 (.inr (.inr (.inl rfl))))
  | differentBoolean =>
    exact mem_rows comparisons (by simp [blocks])
      (mem_comparisons.2 (.inr (.inr (.inr (.inr rfl)))))
  | sameObject =>
    exact mem_rows comparisons (by simp [blocks]) (mem_comparisons.2 (.inr (.inl rfl)))
  | differentObject =>
    exact mem_rows comparisons (by simp [blocks])
      (mem_comparisons.2 (.inr (.inr (.inr (.inl rfl)))))
  | and => exact mem_rows connectives (by simp [blocks]) (List.mem_cons_self ..)
  | or =>
    exact mem_rows connectives (by simp [blocks]) (List.mem_cons_of_mem _ (List.mem_cons_self ..))

theorem mem_rows_iff : row ∈ rows ↔ Allowed row := ⟨allowed_of_mem, mem_of_rule⟩

theorem rows_nodup : (rows.map fun r => (r.name, r.params)).Nodup := by
  decide +kernel

/-- No two rows have a name and operands in common. -/
theorem row_unique {row' : OperatorRow} (h : row ∈ rows) (h' : row' ∈ rows)
    (hname : row.name = row'.name) (hparams : row.params = row'.params) : row = row' :=
  List.inj_on_of_nodup_map rows_nodup h h' (Prod.ext hname hparams)

end Builtin

/-! ## Operand types -/

open Store

/-- Each operand kind stands for the type of that name, and no two for the same type. -/
structure Table.OperandsApart (t : Table) (s : Store) : Prop where
  primitive : ∀ (k : OperandKind) tag, k.tag? = some tag →
    t.primitives.type? tag = some (t.operandTypes.typeOf k)
  object : s.ClassType "java.lang.Object" (t.operandTypes.typeOf .object)
  string : s.ClassType "java.lang.String" (t.operandTypes.typeOf .string)
  injective : Function.Injective t.operandTypes.typeOf

theorem Store.ClassType.form? {s : Store} {root mc : SymbolId} (h : s.Sound root mc) {flat : Name}
    {ty : TypeId} (hc : s.ClassType flat ty) : s.form? ty = some .cls := by
  obtain ⟨id, hid, -, rfl⟩ := hc
  obtain ⟨sym, info, hs, -, -, hform⟩ := h.registered.cls hid
  rwa [typeOf_of_symbol? hs]

theorem Store.ClassType.flat_eq {s : Store} {root mc : SymbolId} (h : s.Sound root mc)
    {flat flat' : Name} {ty : TypeId} (hc : s.ClassType flat ty) (hc' : s.ClassType flat' ty) :
    flat = flat' := by
  obtain ⟨id, hid, -, rfl⟩ := hc
  obtain ⟨id', hid', -, hty⟩ := hc'
  obtain rfl : id = id' := by
    have hd := (h.declaring? hid').1
    rw [hty, (h.declaring? hid).1] at hd
    exact Option.some.inj hd
  exact h.registered.flat_eq hid hid'

/-- The tag of an operand's type; both classes have that of a class. -/
def OperandKind.typeTag (k : OperandKind) : Tag := k.tag?.getD .cls

theorem OperandKind.eq_of_typeTag {k k' : OperandKind} (h : k.typeTag = k'.typeTag) :
    k = k' ∨ k.tag? = none ∧ k'.tag? = none := by
  cases k <;> cases k' <;> first | exact .inl rfl | exact .inr ⟨rfl, rfl⟩ | cases h

theorem Table.Held.operandsApart {t : Table} {s : Store} {root mc : SymbolId} (h : t.Held s)
    (hs : s.Sound root mc) (hcomplete : t.primitives.Complete) : t.OperandsApart s := by
  have hobject : s.ClassType "java.lang.Object" (t.operandTypes.typeOf .object) :=
    h.platform.typeOf (e := ⟨"object", "java.lang.Object"⟩) rfl
  have hstring : s.ClassType "java.lang.String" (t.operandTypes.typeOf .string) :=
    h.platform.typeOf (e := ⟨"string", "java.lang.String"⟩) rfl
  have hprim : ∀ (k : OperandKind) tag, k.tag? = some tag →
      t.primitives.type? tag = some (t.operandTypes.typeOf k) := by
    intro k tag hk
    have hin : tag ∈ Tag.primitives := by cases k <;> cases hk <;> decide
    obtain ⟨ty, hty⟩ := Option.isSome_iff_exists.1 ((hcomplete.types tag).2 hin)
    have hprims : t.operandTypes.primitives = t.primitives := rfl
    cases k <;> cases hk <;> simp [OperandTypes.typeOf, OperandKind.tag?, hprims, hty]
  -- the tag of a type tells the primitive kinds from each other and from the two classes
  have htag : ∀ k, ∃ f, s.form? (t.operandTypes.typeOf k) = some f ∧ f.tag = k.typeTag := by
    intro k
    cases hk : k.tag? with
    | some tag =>
      obtain ⟨f, _, hf, htag, -⟩ := h.primitives tag _ (hprim k tag hk)
      exact ⟨f, hf, by simp [OperandKind.typeTag, hk, htag]⟩
    | none =>
      cases k <;> cases hk
      · exact ⟨.cls, hobject.form? hs, rfl⟩
      · exact ⟨.cls, hstring.form? hs, rfl⟩
  refine ⟨hprim, hobject, hstring, fun k k' hty => ?_⟩
  obtain ⟨f, hf, hk⟩ := htag k
  obtain ⟨f', hf', hk'⟩ := htag k'
  rw [hty, hf', Option.some.injEq] at hf
  rcases OperandKind.eq_of_typeTag (hk.symm.trans (hf ▸ hk')) with heq | ⟨hnone, hnone'⟩
  · exact heq
  · have hne : ¬"java.lang.Object" = "java.lang.String" := by decide
    cases k <;> cases hnone <;> cases k' <;> cases hnone'
    · rfl
    · exact absurd (ClassType.flat_eq hs hobject (hty ▸ hstring)) hne
    · exact absurd (ClassType.flat_eq hs hobject (hty ▸ hstring)) hne
    · rfl

/-! ## Looking operators up -/

namespace Table

variable {t : Table} {s : Store} {name : Name} {operands : List TypeId}

/-- The row is an overload of `name` for these operands. -/
def Matches (t : Table) (name : Name) (operands : List TypeId) (row : OperatorRow) : Prop :=
  row.name = name ∧ row.params.map t.operandTypes.typeOf = operands

instance (row : OperatorRow) : Decidable (t.Matches name operands row) :=
  inferInstanceAs (Decidable (_ ∧ _))

theorem OperandsApart.unique (h : t.OperandsApart s) {row row' : OperatorRow}
    (hrow : row ∈ Builtin.rows) (hrow' : row' ∈ Builtin.rows) (hm : t.Matches name operands row)
    (hm' : t.Matches name operands row') : row = row' :=
  Builtin.row_unique hrow hrow' (hm.1.trans hm'.1.symm)
    (List.map_injective_iff.2 h.injective (hm.2.trans hm'.2.symm))

/-- The overloads for given operands are the rows that match. -/
theorem HoldsRows.filter_accepts (h : t.HoldsRows s) (name : Name) (operands : List TypeId) :
    ((t.operators s name).filter (·.accepts operands)).map (·.entry) =
      (Builtin.rows.filter fun row => decide (t.Matches name operands row)).map
        t.operandTypes.entry := by
  have haccepts : (fun o : OperatorSignature => o.accepts operands) =
      (fun e : OperatorEntry => decide (e.params = operands)) ∘ (·.entry) := rfl
  rw [haccepts, ← List.filter_map, h name, List.filter_map, List.filter_map, List.filter_filter]
  congr 1
  refine List.filter_congr fun row _ => ?_
  rw [Bool.eq_iff_iff, Bool.and_eq_true, decide_eq_true_iff, Matches, and_comm]
  exact and_congr decide_eq_true_iff decide_eq_true_iff

theorem HoldsRows.length_le_one (h : t.HoldsRows s) (ha : t.OperandsApart s) (name : Name)
    (operands : List TypeId) : ((t.operators s name).filter (·.accepts operands)).length ≤ 1 := by
  have hlength := congrArg List.length (h.filter_accepts name operands)
  rw [List.length_map, List.length_map] at hlength
  rw [hlength]
  have hnodup := Builtin.rows_nodup.of_map.filter fun row => decide (t.Matches name operands row)
  have hmem : ∀ row ∈ Builtin.rows.filter fun row => decide (t.Matches name operands row),
      row ∈ Builtin.rows ∧ t.Matches name operands row := by simp
  generalize (Builtin.rows.filter fun row => decide (t.Matches name operands row)) = rows
    at hnodup hmem ⊢
  match rows with
  | [] => exact Nat.zero_le 1
  | [_] => exact Nat.le_refl 1
  | row :: row' :: rest =>
    obtain ⟨hrow, hm⟩ := hmem row (by simp)
    obtain ⟨hrow', hm'⟩ := hmem row' (by simp)
    simp [ha.unique hrow hrow' hm hm'] at hnodup

/-- An operator is found if a rule allows it, and it is as the rule says. -/
theorem HoldsRows.lookupOperator?_iff (h : t.HoldsRows s) (ha : t.OperandsApart s)
    {e : OperatorEntry} : (t.lookupOperator? s name operands).map (·.entry) = some e ↔
      ∃ kinds kind code, Builtin.Rule name kinds kind code ∧
        kinds.map t.operandTypes.typeOf = operands ∧
        e = ⟨name, operands, t.operandTypes.typeOf kind, code⟩ := by
  have hlookup : (t.lookupOperator? s name operands).map (·.entry) =
      (Builtin.rows.find? fun row => decide (t.Matches name operands row)).map
        t.operandTypes.entry := by
    rw [← List.head?_filter, ← List.head?_map, ← h.filter_accepts, List.head?_map, List.head?_filter]
    rfl
  rw [hlookup, Option.map_eq_some_iff]
  constructor
  · intro hfound
    obtain ⟨row, hfind, rfl⟩ := hfound
    have hrow := Builtin.mem_rows_iff.1 (List.mem_of_find?_eq_some hfind)
    have hm := List.find?_some hfind
    obtain ⟨rfl, rfl⟩ : t.Matches name operands row := of_decide_eq_true hm
    exact ⟨row.params, row.result, row.code, hrow, rfl, rfl⟩
  · intro hrules
    obtain ⟨kinds, kind, code, hrule, rfl, rfl⟩ := hrules
    have hrow : (⟨name, kinds, kind, code⟩ : OperatorRow) ∈ Builtin.rows :=
      Builtin.mem_rows_iff.2 hrule
    have hm : t.Matches name (kinds.map t.operandTypes.typeOf) ⟨name, kinds, kind, code⟩ := ⟨rfl, rfl⟩
    have hsome : (Builtin.rows.find? fun row =>
        decide (t.Matches name (kinds.map t.operandTypes.typeOf) row)).isSome :=
      List.find?_isSome.2 ⟨_, hrow, decide_eq_true hm⟩
    obtain ⟨row, hfind⟩ := Option.isSome_iff_exists.1 hsome
    have hm' := List.find?_some hfind
    -- another row may not come first, as there is no other
    rw [ha.unique (List.mem_of_find?_eq_some hfind) hrow (of_decide_eq_true hm') hm] at hfind
    exact ⟨_, hfind, rfl⟩

end Table

namespace Session

/-- Whatever is done in a session, the operators stay the same. -/
theorem Extends.operators {st st' : Session} (h : st.Extends st') (hs : st.Sound)
    (hp : st.store.InPhase st.table.predefClass .completed) (name : Name) :
    st'.table.operators st'.store name = st.table.operators st.store name := by
  have hpredef : st'.table.predefClass = st.table.predefClass := by rw [h.table]
  have hmembers : st'.store.lookupMember st.table.predefClass name =
      st.store.lookupMember st.table.predefClass name := by
    simp only [lookupMember, members?, h.advances.spares.symbol? hp (by simp)]
  rw [Table.operators, Table.operators, hpredef, operatorsNamed, hmembers]
  exact List.filterMap_congr fun x hx => h.advances.keeps.operatorSignature? hs.store.linked
    (hs.store.linked.hasSymbol_of_lookupMember hx)

/-- In every session the operators are those of the rules: no name has two overloads for the same
operands, and looking one up gives what a rule says if there is one, and nothing otherwise. -/
theorem lookupOperator?_eq_some_iff_rule (options : Options) (messages : Messages) (w : World) :
    ∃ t w', Table.build options messages ClassPath.resolver w = (.ok t, w') ∧
      ∀ (ops : List Op) (name : Name) (operands : List TypeId),
        let st := (Session.mk t w').run ops
        st.table.OperandsApart st.store ∧
        ((st.table.operators st.store name).filter (·.accepts operands)).length ≤ 1 ∧
        ∀ e, (st.table.lookupOperator? st.store name operands).map (·.entry) = some e ↔
          ∃ kinds kind code, Builtin.Rule name kinds kind code ∧
            kinds.map st.table.operandTypes.typeOf = operands ∧
            e = ⟨name, operands, st.table.operandTypes.typeOf kind, code⟩ := by
  obtain ⟨t, w', hbuild, hbuilt⟩ := Table.building_ensures options messages w
  refine ⟨t, w', hbuild, fun ops name operands => ?_⟩
  have hstart : (Session.mk t w').Sound := ⟨hbuilt.sound, hbuilt.held⟩
  have hrun := hstart.extends_run ops
  have hprims : ((Session.mk t w').run ops).table.primitives = t.primitives := by rw [hrun.table]
  have htypes : ((Session.mk t w').run ops).table.operandTypes = t.operandTypes := by
    rw [hrun.table]
    rfl
  have ha := hrun.sound.held.operandsApart hrun.sound.store (hprims ▸ hbuilt.complete)
  have hrows : ((Session.mk t w').run ops).table.HoldsRows ((Session.mk t w').run ops).store := by
    intro name
    rw [hrun.operators hstart hbuilt.predefCompleted, htypes]
    exact hbuilt.operators name
  exact ⟨ha, hrows.length_le_one ha name operands, fun e => hrows.lookupOperator?_iff ha⟩

end Session

end SymbolTable
