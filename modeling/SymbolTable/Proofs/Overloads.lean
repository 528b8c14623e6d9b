/-
Overloads of operators in any store.

A store need not be that of a table: whatever symbol has a scope can take
operators, beside whatever it has already. Each operator entered is one
overload more of its name, after those there were, so a run of entries
appends them in order. An entry that fails costs a symbol and a type that
nothing leads to.
-/
import SymbolTable.Proofs.OperatorEntries

namespace SymbolTable

def OperatorEntry.signature (e : OperatorEntry) (id : SymbolId) : OperatorSignature :=
  ⟨id, e.name, e.params, e.result, e.code⟩

/-- The first primitive operand, in the order in which they are looked for, that has no type. -/
def OperandTypes.missing? (types : OperandTypes) : Option Tag :=
  [Tag.byte, .char, .short, .int, .long, .float, .double, .boolean, .bot].find? fun tag =>
    (types.primitives.type? tag).isNone

theorem OperandTypes.check_eq_missing? (types : OperandTypes) : types.check =
    match types.missing? with
    | some tag => .error (.primitiveNotRegistered tag)
    | none => .ok () :=
  types.check_eq

namespace Store

variable {s : Store} {predef : SymbolId} {scope : Scope}

def nextSymbols (s : Store) (n : Nat) : List SymbolId := (List.range' s.symbols.size n).map .mk

/-- A symbol is a member of another, or one of the maps has it. -/
inductive LeadsTo (s : Store) (id : SymbolId) : Prop
  | member {owner : SymbolId} {scope : Scope} {name : Name} {group : List SymbolId}
      (members : s.members? owner = some scope) (entry : (name, group) ∈ scope.toList)
      (mem : id ∈ group)
  | cls {flat : Name} (h : s.class? flat = some id)
  | package {full : Name} (h : s.package? full = some id)

/-! ## One entry -/

theorem nextSymbols_withOperator (s : Store) (predef mc : SymbolId) (e : OperatorEntry) (n : Nat) :
    s.nextSymbols (n + 1) = s.nextSymbol :: (s.withOperator predef mc e).nextSymbols n := by
  have hsize : (s.withOperator predef mc e).symbols.size = s.symbols.size + 1 := by
    simp [withOperator, addOperator_eq, extend, addSymbol, addType, update]
  simp only [nextSymbols, hsize, List.range'_succ, List.map_cons, nextSymbol]

theorem Legible.withOperator (hl : s.Legible predef) (hm : s.members? predef = some scope)
    (herr : scope.isError = false) (mc : SymbolId) (e : OperatorEntry) :
    (s.withOperator predef mc e).Legible predef := by
  intro n x hx
  rw [lookupMember_withOperator hm herr, List.mem_append] at hx
  have hk := s.keeps_withOperator predef mc e
  rcases hx with hold | hnew
  · obtain ⟨sym, hs, hty⟩ := hl n x hold
    obtain ⟨sym', hs', ho⟩ := hk.symbol? hs
    refine ⟨sym', hs', fun hcode => ?_⟩
    rw [Symbol.operatorCode_of_outline ho] at hcode
    rw [Symbol.ty_of_outline ho]
    exact hk.hasType (hty hcode)
  · obtain rfl : x = s.nextSymbol := by
      split at hnew
      · exact List.mem_singleton.1 hnew
      · cases hnew
    have hne := (hasSymbol_of_members? hm).ne_next.symm
    refine ⟨_, (symbol?_update_other _ _ hne).trans
      (by rw [addOperator_eq, symbol?_extend, if_pos rfl]), fun _ => ?_⟩
    simp [HasType, Store.withOperator, addOperator_eq, extend, addSymbol, addType, update, nextType]

theorem leadsTo_iff_of_members? {s' : Store} (hm : ∀ id, s'.members? id = s.members? id)
    (hc : s'.classes = s.classes) (hp : s'.packages = s.packages) (id : SymbolId) :
    s'.LeadsTo id ↔ s.LeadsTo id := by
  constructor
  · rintro (⟨hmem, hentry, hid⟩ | h | h)
    · exact .member (hm _ ▸ hmem) hentry hid
    · exact .cls (by rwa [class?, hc] at h)
    · exact .package (by rwa [package?, hp] at h)
  · rintro (⟨hmem, hentry, hid⟩ | h | h)
    · exact .member ((hm _).trans hmem) hentry hid
    · exact .cls (by rwa [class?, hc])
    · exact .package (by rwa [package?, hp])

end Store

open Store

namespace World

variable {w w' : World} {predef mc : SymbolId} {e : OperatorEntry}

/-- What is left of an operator that could not be entered: a symbol and its type, the last of
either, to which no scope and no map leads. -/
structure LeavesBehind (w : World) (predef mc : SymbolId) (e : OperatorEntry) (w' : World) :
    Prop where
  symbols : w'.store.symbols = w.store.symbols.push
    { modifiers := .ofFlags [.isPublic, .isStatic], name := e.name, owner := some predef,
      ty := w.store.nextType, sentinel := none, body := .operator e.code }
  types : w'.store.types = w.store.types.push ⟨.method (.of e.params e.result), some mc⟩
  classes : w'.store.classes = w.store.classes
  packages : w'.store.packages = w.store.packages
  members : ∀ id, w'.store.members? id = w.store.members? id
  leadsTo : ∀ id, w'.store.LeadsTo id ↔ w.store.LeadsTo id
  names : w'.names = w.names.see e.name
  path : w'.path = w.path
  requests : w'.requests = w.requests

/-! ## Entries that fail -/

theorem enterOperator_leavesBehind (hm : w.store.members? predef = none) (mc : SymbolId)
    (e : OperatorEntry) :
    ∃ w', w.enterOperator predef mc e = (.error (.missingMemberScope predef), w') ∧
      w.LeavesBehind predef mc e w' := by
  have hmembers := w.store.members?_addOperator e.name (.of e.params e.result) e.code predef mc
  have henter : (w.store.addOperator e.name (.of e.params e.result) e.code predef mc).2.enterMember
      predef w.store.nextSymbol = .error (.missingMemberScope predef) := by
    simp only [enterMember, hmembers, hm]
  refine ⟨{ w.see e.name with
    store := (w.store.addOperator e.name (.of e.params e.result) e.code predef mc).2 }, ?_, ?_⟩
  · have hstore : (w.see e.name).store = w.store := rfl
    have hid : (w.store.addOperator e.name (.of e.params e.result) e.code predef mc).1 =
      w.store.nextSymbol := rfl
    simp only [enterOperator, hstore, hid, henter]
  · exact ⟨rfl, rfl, rfl, rfl, hmembers, leadsTo_iff_of_members? hmembers rfl rfl, rfl, rfl, rfl⟩

/-- The first entry that fails is the last. -/
theorem enterOperators_leavesBehind (hm : w.store.members? predef = none) (mc : SymbolId)
    (e : OperatorEntry) (rest : List OperatorEntry) :
    ∃ w', w.enterOperators predef mc (e :: rest) = (.error (.missingMemberScope predef), w') ∧
      w.LeavesBehind predef mc e w' := by
  obtain ⟨w', henter, hleft⟩ := enterOperator_leavesBehind hm mc e
  exact ⟨w', by simp only [enterOperators, henter], hleft⟩

theorem enterBuiltins_leavesBehind {types : OperandTypes} (h : types.missing? = none)
    (hm : w.store.members? predef = none) (mc : SymbolId) :
    ∃ e w', w.enterBuiltins types predef mc = (.error (.missingMemberScope predef), w') ∧
      w.LeavesBehind predef mc e w' := by
  obtain ⟨w', hrun, hleft⟩ := enterOperators_leavesBehind hm mc
    (types.entry (Builtin.unaries.head (by decide))) (Builtin.unaries.tail.map types.entry)
  rw [← List.map_cons, List.cons_head_tail] at hrun
  exact ⟨_, w', by simp only [enterBuiltins, types.check_eq_missing?, h, hrun], hleft⟩

theorem enterBuiltins_of_missing {types : OperandTypes} {tag : Tag} (h : types.missing? = some tag)
    (w : World) (predef mc : SymbolId) :
    w.enterBuiltins types predef mc = (.error (.primitiveNotRegistered tag), w) := by
  simp only [enterBuiltins, types.check_eq_missing?, h]

/-! ## Entries that succeed -/

/-- The run of entries: every one succeeds, and the overloads of a name grow by those entered under
it, in order. -/
theorem enterOperators_operatorsNamed (predef mc : SymbolId) (entries : List OperatorEntry) :
    ∀ {w : World} {scope : Scope}, w.store.members? predef = some scope → scope.isError = false →
      w.store.Legible predef → ∃ w', w.enterOperators predef mc entries =
        (.ok (w.store.nextSymbols entries.length), w') ∧
      ∀ name, w'.store.operatorsNamed predef name = w.store.operatorsNamed predef name ++
        (entries.zipWith OperatorEntry.signature (w.store.nextSymbols entries.length)).filter
          fun o => decide (o.name = name) := by
  induction entries with
  | nil =>
    intro w scope _ _ _
    exact ⟨w, rfl, fun name => by simp⟩
  | cons e rest ih =>
    intro w scope hm herr hl
    have hnext := w.store.nextSymbols_withOperator predef mc e rest.length
    obtain ⟨w', hrun, hnamed⟩ := @ih { w.see e.name with store := w.store.withOperator predef mc e }
      (scope.enter e.name w.store.nextSymbol) (members?_withOperator hm mc e) herr
      (hl.withOperator hm herr mc e)
    refine ⟨w', ?_, fun name => ?_⟩
    · simp only [enterOperators, enterOperator_eq hm, hrun, List.length_cons, hnext]
    · rw [hnamed, operatorsNamed_withOperator hm herr hl, List.append_assoc, List.length_cons, hnext,
        List.zipWith_cons_cons]
      by_cases hname : name = e.name
      · simp [hname, OperatorEntry.signature]
      · simp [hname, Ne.symm hname, OperatorEntry.signature]

/-- Operators entered into a symbol that has an ordinary scope are all entered: the overloads of a
name are those there were, followed by the ones entered under it as they were given, and the one
chosen for some operands is the first that has exactly these. The members there were have to be
readable, which is no more than that the identities in them belong to the store.

The built-in operators are entered only once all primitive operands have a type; the first that has
none is reported and nothing is changed. Where there is no scope, one symbol and one type are left
behind. -/
theorem enterOperators_overloads (w : World) (predef mc : SymbolId) :
    (∀ (scope : Scope) (entries : List OperatorEntry), w.store.members? predef = some scope →
      scope.kind = .members → w.store.Legible predef →
      ∃ w', w.enterOperators predef mc entries =
          (.ok (w.store.nextSymbols entries.length), w') ∧
        ∀ name, ∃ overloads, overloads = w.store.operatorsNamed predef name ++
            (entries.zipWith OperatorEntry.signature (w.store.nextSymbols entries.length)).filter
              (fun o => decide (o.name = name)) ∧
          w'.store.operatorsNamed predef name = overloads ∧
          ∀ operands, w'.store.findOperator? predef name operands =
            overloads.find? fun o => decide (o.params = operands)) ∧
    (∀ (types : OperandTypes) (tag : Tag), types.missing? = some tag →
      w.enterBuiltins types predef mc = (.error (.primitiveNotRegistered tag), w)) ∧
    (w.store.members? predef = none →
      (∀ (e : OperatorEntry) (rest : List OperatorEntry), ∃ w',
        w.enterOperators predef mc (e :: rest) = (.error (.missingMemberScope predef), w') ∧
          w.LeavesBehind predef mc e w') ∧
      ∀ types : OperandTypes, types.missing? = none → ∃ e w',
        w.enterBuiltins types predef mc = (.error (.missingMemberScope predef), w') ∧
          w.LeavesBehind predef mc e w') := by
  refine ⟨fun scope entries hm hkind hl => ?_,
    fun types tag h => enterBuiltins_of_missing h w predef mc,
    fun hm => ⟨enterOperators_leavesBehind hm mc, fun _ h => enterBuiltins_leavesBehind h hm mc⟩⟩
  have herr : scope.isError = false := by simp [Scope.isError, hkind]
  obtain ⟨w', hrun, hnamed⟩ := enterOperators_operatorsNamed predef mc entries hm herr hl
  refine ⟨w', hrun, fun name => ⟨_, rfl, hnamed name, fun operands => ?_⟩⟩
  rw [findOperator?, hnamed]
  rfl

/-- A class with a variable and an operator that share a name takes operators of that name too, one
of them twice. A class without a scope takes none, and `char` is the first operand that is missing
where only `byte` has a type. -/
theorem enterOperators_overloads_beside :
    ∃ (w v : World) (scope : Scope), w.store.members? ⟨0⟩ = some scope ∧ scope.kind = .members ∧
      scope.lookup "+" = [⟨1⟩, ⟨2⟩] ∧ w.store.Legible ⟨0⟩ ∧ v.store.HasSymbol ⟨0⟩ ∧
      v.store.members? ⟨0⟩ = none ∧
      (∃ w', w.enterOperators ⟨0⟩ ⟨0⟩ [⟨"+", [⟨0⟩], ⟨1⟩, .single .iadd⟩,
          ⟨"-", [⟨1⟩], ⟨1⟩, .single .isub⟩, ⟨"+", [⟨1⟩, ⟨1⟩], ⟨0⟩, .single .dadd⟩,
          ⟨"+", [⟨0⟩], ⟨1⟩, .single .iadd⟩] = (.ok [⟨3⟩, ⟨4⟩, ⟨5⟩, ⟨6⟩], w') ∧
        w'.store.operatorsNamed ⟨0⟩ "+" = [⟨⟨2⟩, "+", [⟨0⟩], ⟨0⟩, .single .ladd⟩,
          ⟨⟨3⟩, "+", [⟨0⟩], ⟨1⟩, .single .iadd⟩, ⟨⟨5⟩, "+", [⟨1⟩, ⟨1⟩], ⟨0⟩, .single .dadd⟩,
          ⟨⟨6⟩, "+", [⟨0⟩], ⟨1⟩, .single .iadd⟩] ∧
        w'.store.findOperator? ⟨0⟩ "+" [⟨0⟩] = some ⟨⟨2⟩, "+", [⟨0⟩], ⟨0⟩, .single .ladd⟩) ∧
      w.enterBuiltins ⟨⟨.insert .empty .byte ⟨0⟩, .empty⟩, ⟨0⟩, ⟨0⟩⟩ ⟨0⟩ ⟨0⟩ =
        (.error (.primitiveNotRegistered .char), w) ∧
      (∃ v', v.enterOperators ⟨0⟩ ⟨0⟩ [⟨"+", [⟨0⟩], ⟨1⟩, .single .iadd⟩] =
          (.error (.missingMemberScope ⟨0⟩), v') ∧
        v.LeavesBehind ⟨0⟩ ⟨0⟩ ⟨"+", [⟨0⟩], ⟨1⟩, .single .iadd⟩ v') ∧
      ∃ types : OperandTypes, types.missing? = none ∧ ∃ e v',
        v.enterBuiltins types ⟨0⟩ ⟨0⟩ = (.error (.missingMemberScope ⟨0⟩), v') ∧
          v.LeavesBehind ⟨0⟩ ⟨0⟩ e v' := by
  let scope : Scope := ⟨⟨0⟩, .members, .insert .empty "+" [⟨1⟩, ⟨2⟩]⟩
  let info : ClassInfo := .named "Predef" "Predef"
  let cls (info : ClassInfo) : Symbol := ⟨.empty, "Predef", none, ⟨0⟩, none, .cls info⟩
  let types : Array Ty := #[.absent, ⟨.method (.of [⟨0⟩] ⟨0⟩), none⟩]
  let w : World := { World.empty with
    store := ⟨#[cls { info with members := some scope }, ⟨.empty, "+", some ⟨0⟩, ⟨0⟩, none, .var⟩,
      ⟨.empty, "+", some ⟨0⟩, ⟨1⟩, none, .operator (.single .ladd)⟩], types, .empty, .empty⟩ }
  let v : World := { World.empty with store := ⟨#[cls info], types, .empty, .empty⟩ }
  have hl : w.store.Legible ⟨0⟩ := by
    intro n x hx
    have hlookup : w.store.lookupMember ⟨0⟩ n = if n = "+" then [⟨1⟩, ⟨2⟩] else [] := by
      change ((OrderedMap.empty.insert "+" ([⟨1⟩, ⟨2⟩] : List SymbolId)).get? n).getD [] = _
      rw [OrderedMap.get?_insert]
      split <;> rfl
    rw [hlookup] at hx
    split at hx
    · rcases List.mem_pair.1 hx with rfl | rfl
      · exact ⟨_, rfl, by decide⟩
      · exact ⟨_, rfl, by decide⟩
    · cases hx
  let registered : OperandTypes := ⟨⟨⟨[Tag.byte, .char, .short, .int, .long, .float, .double, .boolean,
    .bot].map fun tag => (tag, ⟨0⟩), by decide⟩, .empty⟩, ⟨0⟩, ⟨0⟩⟩
  have hreg : registered.missing? = none := by rfl
  obtain ⟨w', hrun, hnamed⟩ := (enterOperators_overloads w ⟨0⟩ ⟨0⟩).1 scope _ rfl rfl hl
  obtain ⟨overloads, rfl, hover, hfind⟩ := hnamed "+"
  exact ⟨w, v, scope, rfl, rfl, rfl, hl, by decide, rfl, ⟨w', hrun, hover, hfind [⟨0⟩]⟩,
    (enterOperators_overloads w ⟨0⟩ ⟨0⟩).2.1 _ .char rfl,
    ((enterOperators_overloads v ⟨0⟩ ⟨0⟩).2.2 rfl).1 _ [],
    registered, hreg, ((enterOperators_overloads v ⟨0⟩ ⟨0⟩).2.2 rfl).2 registered hreg⟩

end World

end SymbolTable
