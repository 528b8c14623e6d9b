/-
What the comparison operators compute.

The codes of the table are run here, by the meaning that the instructions
have: a compare instruction pushes a sign, a branch tests that sign or two
operands of its own. Floats and doubles are the numbers of any linear order,
and NaN, which is ordered with nothing. The main result is that the code
found for a comparator branches if the comparator holds of the operands, and
not otherwise. Which of the two compare instructions for floats is taken
shows on NaN alone, and it has to be taken together with the branch.
-/
import Mathlib.Data.Int.Order.Basic
import Mathlib.Order.Lattice
import SymbolTable.Proofs.OperatorTable

namespace SymbolTable

/-! ## Instructions -/

inductive Floating (α : Type) where
  | number (x : α)
  | nan

/-- What instructions compare. `F` and `D` are the numbers of floats and doubles, `R` are the
references. -/
inductive Operand (F D R : Type) where
  | int (n : Int32)
  | long (n : Int64)
  | float (x : Floating F)
  | double (x : Floating D)
  | reference (r : R)

variable {α F D R : Type} [LinearOrder α] [LinearOrder F] [LinearOrder D] [DecidableEq R]

/-- How two numbers are ordered; `unordered` if one of them is none. -/
def Floating.sign (unordered : Int) : Floating α → Floating α → Int
  | .number a, .number b => if a < b then -1 else if b < a then 1 else 0
  | _, _ => unordered

namespace Opcode

def pushed? : Opcode → Operand F D R → Operand F D R → Option Int
  | lcmp, .long a, .long b => some (a.toInt - b.toInt).sign
  | fcmpl, .float a, .float b => some (a.sign (-1) b)
  | fcmpg, .float a, .float b => some (a.sign 1 b)
  | dcmpl, .double a, .double b => some (a.sign (-1) b)
  | dcmpg, .double a, .double b => some (a.sign 1 b)
  | _, _, _ => none

def taken? : Opcode → Int → Option Bool
  | ifeq, v => some (v = 0)
  | ifne, v => some (v ≠ 0)
  | iflt, v => some (v < 0)
  | ifge, v => some (v ≥ 0)
  | ifgt, v => some (v > 0)
  | ifle, v => some (v ≤ 0)
  | _, _ => none

def takenOn? : Opcode → Operand F D R → Operand F D R → Option Bool
  | ifIcmpeq, .int a, .int b => some (a = b)
  | ifIcmpne, .int a, .int b => some (a ≠ b)
  | ifIcmplt, .int a, .int b => some (a < b)
  | ifIcmpge, .int a, .int b => some (a ≥ b)
  | ifIcmpgt, .int a, .int b => some (a > b)
  | ifIcmple, .int a, .int b => some (a ≤ b)
  | ifAcmpeq, .reference a, .reference b => some (a = b)
  | ifAcmpne, .reference a, .reference b => some (a ≠ b)
  | _, _, _ => none

end Opcode

/-- Whether the code of an operator takes its branch; nothing if it is not code for these operands. -/
def OperatorCode.taken? : OperatorCode → Operand F D R → Operand F D R → Option Bool
  | single op, a, b => op.takenOn? a b
  | compareBranch compare branch, a, b => (compare.pushed? a b).bind branch.taken?

/-! ## Comparators -/

/-- The values of an operand kind, as far as values of that kind are compared. -/
inductive OperandValue (F D R : Type) : OperandKind → Type where
  | int (n : Int32) : OperandValue F D R .int
  | long (n : Int64) : OperandValue F D R .long
  | float (x : Floating F) : OperandValue F D R .float
  | double (x : Floating D) : OperandValue F D R .double
  | boolean (b : Bool) : OperandValue F D R .boolean
  | object (r : R) : OperandValue F D R .object

/-- A value as instructions see it: truth values are ints to them. -/
def OperandValue.operand {k : OperandKind} : OperandValue F D R k → Operand F D R
  | .int n => .int n
  | .long n => .long n
  | .float x => .float x
  | .double x => .double x
  | .boolean b => .int (if b then 1 else 0)
  | .object r => .reference r

inductive Comparator where
  | lt
  | gt
  | le
  | ge
  | eq
  | ne
  deriving DecidableEq, Repr

namespace Comparator

def text : Comparator → Name
  | lt => "<"
  | gt => ">"
  | le => "<="
  | ge => ">="
  | eq => "=="
  | ne => "!="

/-- The kinds of operands that are compared. Truth values and objects have no order. -/
def kinds : Comparator → List OperandKind
  | eq | ne => [.double, .float, .long, .int, .boolean, .object]
  | _ => [.double, .float, .long, .int]

def Holds : Comparator → α → α → Prop
  | lt, a, b => a < b
  | gt, a, b => a > b
  | le, a, b => a ≤ b
  | ge, a, b => a ≥ b
  | eq, a, b => a = b
  | ne, a, b => a ≠ b

instance (c : Comparator) (a b : α) : Decidable (c.Holds a b) :=
  match c with
  | lt => inferInstanceAs (Decidable (a < b))
  | gt => inferInstanceAs (Decidable (a > b))
  | le => inferInstanceAs (Decidable (a ≤ b))
  | ge => inferInstanceAs (Decidable (a ≥ b))
  | eq => inferInstanceAs (Decidable (a = b))
  | ne => inferInstanceAs (Decidable (a ≠ b))

/-- With NaN on either side nothing holds but that the two are different. -/
def HoldsFloating (c : Comparator) : Floating α → Floating α → Prop
  | .number a, .number b => c.Holds a b
  | _, _ => c = ne

def HoldsOf : Comparator → {k : OperandKind} → OperandValue F D R k → OperandValue F D R k → Prop
  | c, _, .int a, .int b => c.Holds a.toInt b.toInt
  | c, _, .long a, .long b => c.Holds a.toInt b.toInt
  | c, _, .float a, .float b => c.HoldsFloating a b
  | c, _, .double a, .double b => c.HoldsFloating a b
  | eq, _, .boolean a, .boolean b => a = b
  | ne, _, .boolean a, .boolean b => a ≠ b
  | eq, _, .object a, .object b => a = b
  | ne, _, .object a, .object b => a ≠ b
  | _, _, _, _ => False

/-! ## The code of a comparator -/

/-- What stands for the sign of two operands that are not ordered: the side on which the branch of
the comparator is not taken. -/
def unordered : Comparator → Int
  | lt | le => 1
  | _ => -1

def compareDouble : Comparator → Opcode
  | lt | le => .dcmpg
  | _ => .dcmpl

def compareFloat : Comparator → Opcode
  | lt | le => .fcmpg
  | _ => .fcmpl

def branch : Comparator → Opcode
  | lt => .iflt
  | gt => .ifgt
  | le => .ifle
  | ge => .ifge
  | eq => .ifeq
  | ne => .ifne

def branchInt : Comparator → Opcode
  | lt => .ifIcmplt
  | gt => .ifIcmpgt
  | le => .ifIcmple
  | ge => .ifIcmpge
  | eq => .ifIcmpeq
  | ne => .ifIcmpne

/-- The branch that compares references; only equality has one. -/
def branchReference? : Comparator → Option Opcode
  | eq => some .ifAcmpeq
  | ne => some .ifAcmpne
  | _ => none

theorem comparison (c : Comparator) :
    Builtin.Comparison c.text c.compareDouble c.compareFloat c.branch c.branchInt := by
  cases c <;> constructor

theorem taken?_branch (c : Comparator) (v : Int) : c.branch.taken? v = some (decide (c.Holds v 0)) := by
  cases c <;> rfl

theorem takenOn?_branchInt {G H : Type} (c : Comparator) (a b : Int32) :
    c.branchInt.takenOn? (.int a : Operand G H R) (.int b) =
      some (decide (c.Holds a.toInt b.toInt)) := by
  cases c with
  | lt | gt => exact congrArg some (decide_eq_decide.2 Int32.lt_iff_toInt_lt)
  | le | ge => exact congrArg some (decide_eq_decide.2 Int32.le_iff_toInt_le)
  | eq => exact congrArg some (decide_eq_decide.2 Int32.toInt_inj.symm)
  | ne => exact congrArg some (decide_eq_decide.2 (not_congr Int32.toInt_inj.symm))

theorem holds_sign_sub (c : Comparator) (a b : Int) : c.Holds (a - b).sign 0 ↔ c.Holds a b := by
  cases c with
  | lt => simp only [Holds, Int.sign_neg_iff]; omega
  | gt => simp only [Holds, gt_iff_lt, Int.sign_pos_iff]; omega
  | le => simp only [Holds, Int.sign_nonpos_iff]; omega
  | ge => simp only [Holds, ge_iff_le, Int.sign_nonneg_iff]; omega
  | eq => simp only [Holds, Int.sign_eq_zero_iff_zero]; omega
  | ne => simp only [Holds, ne_eq, Int.sign_eq_zero_iff_zero]; omega

theorem holds_sign_number (c : Comparator) (unordered : Int) (a b : α) :
    c.Holds ((Floating.number a).sign unordered (.number b)) 0 ↔ c.Holds a b := by
  rcases lt_trichotomy a b with h | rfl | h
  · have hle : ¬b ≤ a := not_le_of_gt h
    have hlt : ¬b < a := not_lt_of_ge (le_of_lt h)
    cases c <;> simp [Floating.sign, Holds, h, hle, hlt, le_of_lt h, ne_of_lt h]
  · cases c <;> simp [Floating.sign, Holds]
  · have hle : ¬a ≤ b := not_le_of_gt h
    have hlt : ¬a < b := not_lt_of_ge (le_of_lt h)
    cases c <;> simp [Floating.sign, Holds, h, hle, hlt, le_of_lt h, ne_of_gt h]

/-- The compare instruction of a comparator goes with its branch: on NaN the branch of every
comparator is missed, except that of `!=`. -/
theorem holds_unordered (c : Comparator) : c.Holds c.unordered 0 ↔ c = ne := by
  cases c <;> simp [Holds, unordered]

theorem holds_sign (c : Comparator) (x y : Floating α) :
    c.Holds (x.sign c.unordered y) 0 ↔ c.HoldsFloating x y := by
  cases x with
  | nan => exact c.holds_unordered
  | number a =>
    cases y with
    | nan => exact c.holds_unordered
    | number b => exact c.holds_sign_number c.unordered a b

def code? (c : Comparator) : OperandKind → Option OperatorCode
  | .double => some (.compareBranch c.compareDouble c.branch)
  | .float => some (.compareBranch c.compareFloat c.branch)
  | .long => some (.compareBranch .lcmp c.branch)
  | .int => some (.single c.branchInt)
  | .boolean => c.branchReference?.map fun _ => .single c.branchInt
  | .object => c.branchReference?.map .single
  | _ => none

theorem exists_code {c : Comparator} {k : OperandKind} (hk : k ∈ c.kinds) :
    ∃ code, c.code? k = some code ∧ Builtin.Rule c.text [k, k] .boolean code := by
  have hordered : k ∈ [OperandKind.double, .float, .long, .int] →
      ∃ code, c.code? k = some code ∧ Builtin.Rule c.text [k, k] .boolean code := by
    intro h
    simp only [List.mem_cons, List.not_mem_nil, or_false] at h
    rcases h with rfl | rfl | rfl | rfl
    · exact ⟨_, rfl, .compareDouble c.comparison⟩
    · exact ⟨_, rfl, .compareFloat c.comparison⟩
    · exact ⟨_, rfl, .compareLong c.comparison⟩
    · exact ⟨_, rfl, .compareInt c.comparison⟩
  by_cases hold : k ∈ [OperandKind.double, .float, .long, .int]
  · exact hordered hold
  · -- what is left are the two kinds that only equality compares
    cases c with
    | eq =>
      obtain rfl | rfl : k = .boolean ∨ k = .object := by simp_all [kinds]
      · exact ⟨_, rfl, .sameBoolean⟩
      · exact ⟨_, rfl, .sameObject⟩
    | ne =>
      obtain rfl | rfl : k = .boolean ∨ k = .object := by simp_all [kinds]
      · exact ⟨_, rfl, .differentBoolean⟩
      · exact ⟨_, rfl, .differentObject⟩
    | _ => exact absurd hk hold

/-- The code of a comparator branches if it holds of the operands, and not otherwise. -/
theorem taken?_code {c : Comparator} {k : OperandKind} {code : OperatorCode}
    (hcode : c.code? k = some code) (a b : OperandValue F D R k) :
    ∃ taken, code.taken? a.operand b.operand = some taken ∧ (taken = true ↔ c.HoldsOf a b) := by
  have htest : ∀ v : Int, c.branch.taken? v = some (decide (c.Holds v 0)) := c.taken?_branch
  cases a with
  | int a =>
    cases b with
    | int b =>
      obtain rfl := Option.some.inj hcode
      exact ⟨_, c.takenOn?_branchInt a b, decide_eq_true_iff⟩
  | long a =>
    cases b with
    | long b =>
      obtain rfl := Option.some.inj hcode
      exact ⟨_, htest _, decide_eq_true_iff.trans (c.holds_sign_sub ..)⟩
  | float a =>
    cases b with
    | float b =>
      obtain rfl := Option.some.inj hcode
      have hpushed : c.compareFloat.pushed? (.float a : Operand F D R) (.float b) =
          some (a.sign c.unordered b) := by cases c <;> rfl
      refine ⟨decide (c.Holds (a.sign c.unordered b) 0), ?_, decide_eq_true_iff.trans (c.holds_sign a b)⟩
      simp only [OperatorCode.taken?, OperandValue.operand, hpushed, Option.bind_some, htest]
  | double a =>
    cases b with
    | double b =>
      obtain rfl := Option.some.inj hcode
      have hpushed : c.compareDouble.pushed? (.double a : Operand F D R) (.double b) =
          some (a.sign c.unordered b) := by cases c <;> rfl
      refine ⟨decide (c.Holds (a.sign c.unordered b) 0), ?_, decide_eq_true_iff.trans (c.holds_sign a b)⟩
      simp only [OperatorCode.taken?, OperandValue.operand, hpushed, Option.bind_some, htest]
  | boolean a =>
    cases b with
    | boolean b =>
      cases c with
      | eq | ne =>
        obtain rfl := Option.some.inj hcode
        refine ⟨_, rfl, ?_⟩
        cases a <;> cases b <;> simp [HoldsOf]
      | _ => cases hcode
  | object a =>
    cases b with
    | object b =>
      cases c with
      | eq | ne =>
        obtain rfl := Option.some.inj hcode
        exact ⟨_, rfl, decide_eq_true_iff⟩
      | _ => cases hcode

theorem kinds_of_rule {c : Comparator} {params : List OperandKind} {result : OperandKind}
    {code : OperatorCode} (h : Builtin.Rule c.text params result code) :
    ∃ k ∈ c.kinds, params = [k, k] := by
  have hall : ∀ row ∈ Builtin.rows, row.name = c.text → ∃ k ∈ c.kinds, row.params = [k, k] := by
    cases c <;> decide +kernel
  exact hall _ (Builtin.mem_of_rule h) rfl

end Comparator

namespace Session

/-- Whatever is done in a session, its operators are those of the rows, and the kinds of their
operands stand for types that differ. -/
theorem exists_holdsRows_run (options : Options) (messages : Messages) (w : World) :
    ∃ t w', Table.build options messages ClassPath.resolver w = (.ok t, w') ∧ ∀ ops : List Op,
      ((Session.mk t w').run ops).table.OperandsApart ((Session.mk t w').run ops).store ∧
        ((Session.mk t w').run ops).table.HoldsRows ((Session.mk t w').run ops).store := by
  obtain ⟨t, w', hbuild, hbuilt⟩ := Table.building_ensures options messages w
  refine ⟨t, w', hbuild, fun ops => ?_⟩
  have hstart : (Session.mk t w').Sound := ⟨hbuilt.sound, hbuilt.held⟩
  have hrun := hstart.extends_run ops
  have hprims : ((Session.mk t w').run ops).table.primitives = t.primitives := by rw [hrun.table]
  have htypes : ((Session.mk t w').run ops).table.operandTypes = t.operandTypes := by
    rw [hrun.table]
    rfl
  refine ⟨hrun.sound.held.operandsApart hrun.sound.store (hprims ▸ hbuilt.complete), fun name => ?_⟩
  rw [hrun.operators hstart hbuilt.predefCompleted, htypes]
  exact hbuilt.operators name

/-- In every session a comparator is found for two operands of each kind that it compares, and for
no others, and the code that is found branches if the comparator holds of the operands. -/
theorem lookupOperator?_branches_iff (F D R : Type) [LinearOrder F] [LinearOrder D] [DecidableEq R]
    (options : Options) (messages : Messages) (w : World) :
    ∃ t w', Table.build options messages ClassPath.resolver w = (.ok t, w') ∧
      ∀ (ops : List Op) (c : Comparator),
        let st := (Session.mk t w').run ops
        let ty := st.table.operandTypes.typeOf
        st.table.OperandsApart st.store ∧
        (∀ operands, (st.table.lookupOperator? st.store c.text operands).isSome ↔
          ∃ k ∈ c.kinds, operands = [ty k, ty k]) ∧
        ∀ k ∈ c.kinds, ∃ o, st.table.lookupOperator? st.store c.text [ty k, ty k] = some o ∧
          ∀ a b : OperandValue F D R k, ∃ taken,
            o.code.taken? a.operand b.operand = some taken ∧ (taken = true ↔ c.HoldsOf a b) := by
  obtain ⟨t, w', hbuild, hall⟩ := exists_holdsRows_run options messages w
  refine ⟨t, w', hbuild, fun ops c => ?_⟩
  obtain ⟨ha, hrows⟩ := hall ops
  generalize (Session.mk t w').run ops = st at ha hrows
  have hfound : ∀ k ∈ c.kinds, ∃ o code, st.table.lookupOperator? st.store c.text
      [st.table.operandTypes.typeOf k, st.table.operandTypes.typeOf k] = some o ∧
        c.code? k = some code ∧ o.code = code := by
    intro k hk
    obtain ⟨code, hcode, hrule⟩ := Comparator.exists_code hk
    obtain ⟨o, ho, hentry⟩ := Option.map_eq_some_iff.1
      ((hrows.lookupOperator?_iff ha).2 ⟨[k, k], .boolean, code, hrule, rfl, rfl⟩)
    exact ⟨o, code, ho, hcode, congrArg OperatorEntry.code hentry⟩
  refine ⟨ha, fun operands => ⟨fun hsome => ?_, ?_⟩, fun k hk => ?_⟩
  · obtain ⟨o, ho⟩ := Option.isSome_iff_exists.1 hsome
    obtain ⟨kinds, _, _, hrule, rfl, -⟩ :=
      (hrows.lookupOperator?_iff ha).1 (congrArg (Option.map (·.entry)) ho)
    obtain ⟨k, hk, rfl⟩ := Comparator.kinds_of_rule hrule
    exact ⟨k, hk, rfl⟩
  · rintro ⟨k, hk, rfl⟩
    obtain ⟨o, _, ho, -⟩ := hfound k hk
    simp [ho]
  · obtain ⟨o, code, ho, hcode, rfl⟩ := hfound k hk
    exact ⟨o, ho, Comparator.taken?_code hcode⟩

/-- Doubles whose numbers are the integers: `<` compares by the instruction that puts NaN last, and
so neither is below the other; `!=` holds of them. -/
theorem lookupOperator?_branches_nan : ∃ (t : Table) (w : World) (lt ne : OperatorSignature),
    Table.build .default Messages.english ClassPath.resolver .empty = (.ok t, w) ∧
      let ty := t.operandTypes.typeOf .double
      let one : OperandValue Int Int Nat .double := .double (.number 1)
      let nan : OperandValue Int Int Nat .double := .double .nan
      OperandKind.double ∈ Comparator.lt.kinds ∧ OperandKind.double ∈ Comparator.ne.kinds ∧
        t.lookupOperator? w.store "<" [ty, ty] = some lt ∧
        t.lookupOperator? w.store "!=" [ty, ty] = some ne ∧
        lt.code.taken? nan.operand one.operand = some false ∧
        lt.code.taken? one.operand nan.operand = some false ∧
        ne.code.taken? nan.operand nan.operand = some true := by
  obtain ⟨t, w, hbuild, hall⟩ :=
    lookupOperator?_branches_iff Int Int Nat .default Messages.english .empty
  obtain ⟨-, -, hlt⟩ := hall [] .lt
  obtain ⟨-, -, hne⟩ := hall [] .ne
  obtain ⟨lt, hfound, hbranches⟩ := hlt .double (by decide)
  obtain ⟨ne, hfound', hbranches'⟩ := hne .double (by decide)
  -- what a code does is known once it is known whether the comparator holds
  have hdecided : ∀ {o : Option Bool} {p : Prop} (b : Bool), (p ↔ b = true) →
      (∃ taken, o = some taken ∧ (taken = true ↔ p)) → o = some b := by
    rintro o p b hp ⟨taken, rfl, htaken⟩
    exact congrArg some (Bool.eq_iff_iff.2 (htaken.trans hp))
  refine ⟨t, w, lt, ne, hbuild, by decide, by decide, hfound, hfound', ?_, ?_, ?_⟩
  · exact hdecided false (by simp [Comparator.HoldsOf, Comparator.HoldsFloating]) (hbranches _ _)
  · exact hdecided false (by simp [Comparator.HoldsOf, Comparator.HoldsFloating]) (hbranches _ _)
  · exact hdecided true (by simp [Comparator.HoldsOf, Comparator.HoldsFloating]) (hbranches' _ _)

end Session

end SymbolTable
