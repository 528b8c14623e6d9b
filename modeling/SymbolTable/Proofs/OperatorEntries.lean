/-
Entering operators into the predefined class.

Each operator is a symbol more and a member more of the predefined class,
and nothing else changes. So the overloads of a name are those there were,
followed by the new ones of that name in order (`OperatorsEntered`).
-/
import SymbolTable.Operator.Builtin
import SymbolTable.Proofs.Filing

namespace SymbolTable

/-- An operator without its identity. -/
def OperatorSignature.entry (o : OperatorSignature) : OperatorEntry :=
  ⟨o.name, o.params, o.result, o.code⟩

theorem Symbol.operatorCode_of_outline {sym sym' : Symbol} (h : sym'.outline = sym.outline) :
    sym'.operatorCode? = sym.operatorCode? := by
  have hb : sym'.body.outline = sym.body.outline := congrArg Symbol.body h
  unfold operatorCode?
  cases hs : sym.body <;> cases hs' : sym'.body <;> simp_all [SymbolBody.outline]

namespace Store

variable {s s' s'' : Store} {root mc predef : SymbolId}

/-- A class has no signature of an operator. -/
theorem operatorSignature?_of_class {id : SymbolId} (h : (s.classInfo? id).isSome) :
    s.operatorSignature? id = none := by
  obtain ⟨info, hinfo⟩ := Option.isSome_iff_exists.1 h
  obtain ⟨sym, hs, hb⟩ := classInfo?_eq_some.1 hinfo
  simp [operatorSignature?, hs, Symbol.operatorCode?, hb]

/-- The operators among the members of `id` can be read: every member is a symbol of the store, and
the type of an operator is there too. -/
def Legible (s : Store) (id : SymbolId) : Prop :=
  ∀ n, ∀ x ∈ s.lookupMember id n, ∃ sym, s.symbol? x = some sym ∧
    (sym.operatorCode?.isSome → s.HasType sym.ty)

/-- A symbol that can be read keeps its signature, if it has one. -/
theorem Keeps.operatorSignature?_of_legible (hk : s.Keeps s') {x : SymbolId} {sym : Symbol}
    (hs : s.symbol? x = some sym) (hty : sym.operatorCode?.isSome → s.HasType sym.ty) :
    s'.operatorSignature? x = s.operatorSignature? x := by
  obtain ⟨sym', hs', ho⟩ := hk.symbol? hs
  cases hcode : sym.operatorCode? with
  | none =>
    simp [Store.operatorSignature?, hs, hs', Symbol.operatorCode_of_outline ho, hcode]
  | some code =>
    obtain ⟨t, ht⟩ := (hty (by simp [hcode])).type?
    have hform : s.form? sym.ty = some t.form := by simp [form?, ht]
    have hsig := signature?_of_form? ((hk.form hform).trans hform.symm)
    simp only [Store.operatorSignature?, hs, hs', Option.bind_eq_bind, Option.bind_some,
      Symbol.operatorCode_of_outline ho, Symbol.name_of_outline ho, Symbol.ty_of_outline ho, hsig]

/-- An operator of a store keeps its signature. -/
theorem Keeps.operatorSignature? (hk : s.Keeps s') (h : s.Linked root mc) {x : SymbolId}
    (hx : s.HasSymbol x) : s'.operatorSignature? x = s.operatorSignature? x := by
  obtain ⟨sym, hs⟩ := hx.symbol?
  exact hk.operatorSignature?_of_legible hs fun _ =>
    (h.symbols x sym hs).types sym.ty (List.mem_cons_self ..)

theorem Linked.hasSymbol_of_lookupMember (h : s.Linked root mc) {id x : SymbolId} {n : Name}
    (hx : x ∈ s.lookupMember id n) : s.HasSymbol x := by
  unfold lookupMember at hx
  split at hx
  · next sc hsc =>
    obtain ⟨sym, hs, hm⟩ := Option.bind_eq_some_iff.1 hsc
    unfold Scope.lookup at hx
    split at hx
    · cases hx
    · cases hg : sc.groups.get? n with
      | none => simp [hg] at hx
      | some xs =>
        rw [hg, Option.getD_some] at hx
        exact (((h.symbols id sym hs).scope sc hm).entries n xs
          (OrderedMap.mem_entries_of_get? hg) x hx).1
  · cases hx

theorem Linked.legible (h : s.Linked root mc) (id : SymbolId) : s.Legible id := by
  intro n x hx
  obtain ⟨sym, hs⟩ := (h.hasSymbol_of_lookupMember hx).symbol?
  exact ⟨sym, hs, fun _ => (h.symbols x sym hs).types sym.ty (List.mem_cons_self ..)⟩

/-! ## Names of members -/

/-- The names under which a symbol has members, in the order of first entry. -/
def memberNames? (s : Store) (id : SymbolId) : Option (List Name) :=
  (s.members? id).map fun scope => scope.groups.keys

/-- The names once a member is entered. -/
def enterName (names : List Name) (n : Name) : List Name := if n ∈ names then names else names ++ [n]

theorem InPhase.memberNames? {id : SymbolId} (h : s.InPhase id .completed) (n : Name)
    (x : SymbolId) :
    (s.update id (Symbol.mapMembers fun scope => scope.enter n x)).memberNames? id =
      (s.memberNames? id).map (enterName · n) := by
  obtain ⟨sc, hm, -⟩ := h.members?
  have hkeys : (sc.enter n x).groups.keys = enterName sc.groups.keys n := keys_putEntry ..
  simp only [Store.memberNames?, members?_enter hm, hm, Option.map_some, hkeys]

/-! ## One operator -/

/-- The store with an operator more that is a member of `predef`. -/
def withOperator (s : Store) (predef mc : SymbolId) (e : OperatorEntry) : Store :=
  (s.addOperator e.name (.of e.params e.result) e.code predef mc).2.update predef
    (Symbol.mapMembers fun scope => scope.enter e.name s.nextSymbol)

theorem operatorSignature?_addOperator (s : Store) (predef mc : SymbolId) (e : OperatorEntry) :
    (s.addOperator e.name (.of e.params e.result) e.code predef mc).2.operatorSignature?
      s.nextSymbol = some ⟨s.nextSymbol, e.name, e.params, e.result, e.code⟩ := by
  simp [addOperator_eq, operatorSignature?, symbol?_extend, Symbol.operatorCode?, signature?,
    type?_extend, Signature.of]

/-- The store with several operators more, in order. -/
def withOperators (s : Store) (predef mc : SymbolId) (entries : List OperatorEntry) : Store :=
  entries.foldl (fun s e => s.withOperator predef mc e) s

/-- What becomes of a store as operators are entered, in order. -/
structure OperatorsEntered (root mc predef : SymbolId) (s : Store) (entries : List OperatorEntry)
    (s' : Store) : Prop where
  eq : s' = s.withOperators predef mc entries
  sound : s'.Sound root mc
  grown : s.Grows (entries.map fun _ => .method) s'
  completed : s'.InPhase predef .completed
  same : ∀ y, y ≠ predef → s.SameClass s' y
  maps : s'.classes = s.classes
  names : s'.memberNames? predef =
    (s.memberNames? predef).map fun names => (entries.map (·.name)).foldl enterName names
  operators : ∀ n, (s'.operatorsNamed predef n).map (·.entry) =
    (s.operatorsNamed predef n).map (·.entry) ++ entries.filter fun e => decide (e.name = n)

theorem OperatorsEntered.keeps {entries : List OperatorEntry}
    (h : OperatorsEntered root mc predef s entries s') : s.Keeps s' := h.grown.keeps

theorem OperatorsEntered.nil (h : s.Sound root mc) (hp : s.InPhase predef .completed) :
    OperatorsEntered root mc predef s [] s :=
  ⟨rfl, h, .refl, hp, fun _ _ _ _ _ => Iff.rfl, rfl, by simp, by simp⟩

theorem OperatorsEntered.append {es es' : List OperatorEntry}
    (h : OperatorsEntered root mc predef s es s') (h' : OperatorsEntered root mc predef s' es' s'') :
    OperatorsEntered root mc predef s (es ++ es') s'' where
  eq := by rw [h'.eq, h.eq, withOperators, withOperators, withOperators, List.foldl_append]
  sound := h'.sound
  grown := List.map_append ▸ h.grown.trans h'.grown
  completed := h'.completed
  same y hy := (h.same y hy).trans (h'.same y hy)
  maps := h'.maps.trans h.maps
  names := by
    rw [h'.names, h.names, Option.map_map]
    simp only [Function.comp_def, List.map_append, List.foldl_append]
  operators n := by rw [h'.operators, h.operators, List.filter_append, List.append_assoc]

theorem hasSymbol_of_members? {id : SymbolId} {sc : Scope} (h : s.members? id = some sc) :
    s.HasSymbol id := by
  obtain ⟨sym, hs, -⟩ := Option.bind_eq_some_iff.1 h
  exact hasSymbol_of_symbol? hs

/-- An operator is no owner, so the scopes are as they were. -/
theorem members?_addOperator (s : Store) (name : Name) (signature : Signature) (code : OperatorCode)
    (owner mc id : SymbolId) :
    (s.addOperator name signature code owner mc).2.members? id = s.members? id := by
  rw [addOperator_eq, members?, symbol?_extend]
  split
  · next hid => simp [hid, members?, symbol?, nextSymbol, Symbol.members?]
  · rfl

/-- An operator is entered as soon as it is made. -/
theorem enterMember_addOperator {sc : Scope} (hm : s.members? predef = some sc) (mc : SymbolId)
    (e : OperatorEntry) :
    (s.addOperator e.name (.of e.params e.result) e.code predef mc).2.enterMember predef
      s.nextSymbol = .ok (s.withOperator predef mc e) := by
  have hname : (s.addOperator e.name (.of e.params e.result) e.code predef mc).2.nameOf s.nextSymbol =
      e.name := by
    simp [addOperator_eq, nameOf, symbol?_extend]
  simp only [enterMember, (s.members?_addOperator ..).trans hm, hname]
  rfl

theorem keeps_withOperator (s : Store) (predef mc : SymbolId) (e : OperatorEntry) :
    s.Keeps (s.withOperator predef mc e) :=
  (s.keeps_extend _ _).trans (keeps_mapMembers ..)

theorem members?_withOperator {sc : Scope} (hm : s.members? predef = some sc) (mc : SymbolId)
    (e : OperatorEntry) :
    (s.withOperator predef mc e).members? predef = some (sc.enter e.name s.nextSymbol) :=
  members?_enter ((s.members?_addOperator ..).trans hm) e.name s.nextSymbol

/-- The members of a name are those it had, and the new operator. -/
theorem lookupMember_withOperator {sc : Scope} (hm : s.members? predef = some sc)
    (herr : sc.isError = false) (mc : SymbolId) (e : OperatorEntry) (n : Name) :
    (s.withOperator predef mc e).lookupMember predef n =
      s.lookupMember predef n ++ if n = e.name then [s.nextSymbol] else [] := by
  have hold := s.members?_addOperator e.name (.of e.params e.result) e.code predef mc predef
  rw [withOperator, lookupMember_enter (hold.trans hm) herr]
  simp only [lookupMember, hold]

theorem operatorSignature?_withOperator (hpredef : s.HasSymbol predef) (mc : SymbolId)
    (e : OperatorEntry) : (s.withOperator predef mc e).operatorSignature? s.nextSymbol =
      some ⟨s.nextSymbol, e.name, e.params, e.result, e.code⟩ := by
  rw [← operatorSignature?_addOperator s predef mc e, withOperator, operatorSignature?,
    symbol?_update_other _ _ hpredef.ne_next.symm]
  rfl

/-- The overloads of a name are found among the members as they were, and the new operator. -/
theorem operatorsNamed_withOperator {sc : Scope} (hm : s.members? predef = some sc)
    (herr : sc.isError = false) (hl : s.Legible predef) (mc : SymbolId) (e : OperatorEntry) (n : Name) :
    (s.withOperator predef mc e).operatorsNamed predef n = s.operatorsNamed predef n ++
      if n = e.name then [⟨s.nextSymbol, e.name, e.params, e.result, e.code⟩] else [] := by
  have hold : (s.lookupMember predef n).filterMap (s.withOperator predef mc e).operatorSignature? =
      s.operatorsNamed predef n := by
    refine List.filterMap_congr fun x hx => ?_
    obtain ⟨sym, hs, hty⟩ := hl n x hx
    exact (s.keeps_withOperator predef mc e).operatorSignature?_of_legible hs hty
  have hnew := operatorSignature?_withOperator (hasSymbol_of_members? hm) mc e
  rw [operatorsNamed, lookupMember_withOperator hm herr, List.filterMap_append, hold]
  split
  · rw [List.filterMap_cons_some hnew, List.filterMap_nil]
  · rfl

theorem OperatorsEntered.withOperator (h : s.Sound root mc) (hp : s.InPhase predef .completed)
    (hmc : s.HasSymbol mc) {e : OperatorEntry} (hparams : ∀ ty ∈ e.params, s.HasType ty)
    (hresult : s.HasType e.result) :
    OperatorsEntered root mc predef s [e] (s.withOperator predef mc e) := by
  obtain ⟨sym, info, hs, hb, -⟩ := id hp
  have hpredef := hasSymbol_of_symbol? hs
  have hg : ∀ ty ∈ (Signature.of e.params e.result).types, s.HasType ty := by
    simpa [Signature.types, Signature.of, or_imp, forall_and] using ⟨hparams, hresult⟩
  have hadd := h.linked.addMethodLike hpredef hmc hg (.ofFlags [.isPublic, .isStatic]) e.name
    (.inr ⟨e.code, rfl⟩)
  have hk : s.Keeps (s.addOperator e.name (.of e.params e.result) e.code predef mc).2 :=
    s.keeps_extend _ _
  have hsound : (s.addOperator e.name (.of e.params e.result) e.code predef mc).2.Sound root mc :=
    ⟨hadd, h.registered.of_maps hk rfl rfl, h.phased.extend h.registered _ (by simp)⟩
  have hname : (s.addOperator e.name (.of e.params e.result) e.code predef mc).2.nameOf s.nextSymbol =
      e.name := by
    simp [addOperator_eq, nameOf, symbol?_extend]
  have hgrown : s.Grows [.method] (s.addOperator e.name (.of e.params e.result) e.code predef mc).2 :=
    Grows.refl.method (d := mc) ⟨by simp, by simp⟩ hg
  have hinfo : (s.classInfo? predef).isSome := by simp [classInfo?_eq_some.2 ⟨sym, hs, hb⟩]
  refine ⟨rfl, ?_, hgrown.update (hk.isSome_classInfo? hinfo) (Symbol.outline_mapMembers _),
    (hp.extend _ _).mapMembers _ _, fun y hy => ?_, rfl, ?_, fun n => ?_⟩
  · have hentered := hsound.enterMember (hp.extend _ _) (hasSymbol_next_extend ..)
    rwa [hname] at hentered
  · exact (sameClass_extend s _ (by simp) y).trans (sameClass_update _ _ hy)
  · refine ((hp.extend _ _).memberNames? e.name s.nextSymbol).trans ?_
    simp only [Store.memberNames?, members?, symbol?_extend_old hpredef]
    rfl
  · obtain ⟨sc, hm, herr⟩ := hp.members?
    rw [operatorsNamed_withOperator hm herr (h.linked.legible predef), List.map_append]
    by_cases hn : n = e.name
    · simp [hn, OperatorSignature.entry]
    · simp [hn, Ne.symm hn]

end Store

/-! ## Many operators -/

open Store

namespace World

variable {w : World} {root mc predef : SymbolId}

/-- What enters an operator into a symbol that has a scope. -/
theorem enterOperator_eq {sc : Scope} (hm : w.store.members? predef = some sc) (mc : SymbolId)
    (e : OperatorEntry) : w.enterOperator predef mc e =
      (.ok w.store.nextSymbol, { w.see e.name with store := w.store.withOperator predef mc e }) := by
  have henter := enterMember_addOperator hm mc e
  set s₁ := (w.store.addOperator e.name (.of e.params e.result) e.code predef mc).2
  have hadd : w.store.addOperator e.name (.of e.params e.result) e.code predef mc =
    (w.store.nextSymbol, s₁) := rfl
  have hstore : (w.see e.name).store = w.store := rfl
  simp only [enterOperator, hstore, hadd, henter]

theorem enterOperators_entered (h : w.store.Sound root mc) (hp : w.store.InPhase predef .completed)
    (hmc : w.store.HasSymbol mc) {entries : List OperatorEntry}
    (htypes : ∀ e ∈ entries, (∀ ty ∈ e.params, w.store.HasType ty) ∧ w.store.HasType e.result) :
    ∃ ids w', w.enterOperators predef mc entries = (.ok ids, w') ∧
      OperatorsEntered root mc predef w.store entries w'.store := by
  induction entries generalizing w with
  | nil => exact ⟨[], w, rfl, .nil h hp⟩
  | cons e entries ih =>
    obtain ⟨hparams, hresult⟩ := htypes e (List.mem_cons_self ..)
    obtain ⟨sc, hm, -⟩ := hp.members?
    have hone := OperatorsEntered.withOperator h hp hmc hparams hresult
    obtain ⟨ids, w', hrun, hmany⟩ := ih
      (w := { w.see e.name with store := w.store.withOperator predef mc e })
      hone.sound hone.completed (hone.keeps.hasSymbol hmc) fun e' he =>
        ⟨fun ty hty => hone.keeps.hasType ((htypes e' (List.mem_cons_of_mem _ he)).1 ty hty),
          hone.keeps.hasType (htypes e' (List.mem_cons_of_mem _ he)).2⟩
    exact ⟨w.store.nextSymbol :: ids, w', by simp only [enterOperators, enterOperator_eq hm, hrun],
      hone.append hmany⟩

end World

/-- Every operand kind has a type in the store. -/
structure OperandTypes.Sound (s : Store) (t : OperandTypes) : Prop where
  registered : ∀ (k : OperandKind) tag, k.tag? = some tag → (t.primitives.type? tag).isSome
  hasType : ∀ k, s.HasType (t.typeOf k)

theorem OperandTypes.Sound.mono {s s' : Store} {t : OperandTypes} (h : t.Sound s) (hk : s.Keeps s') :
    t.Sound s' :=
  ⟨h.registered, fun k => hk.hasType (h.hasType k)⟩

/-- The check finds the first primitive operand that is not registered. -/
theorem OperandTypes.check_eq (t : OperandTypes) : t.check =
    match (OperandKind.primitives.filterMap OperandKind.tag?).find? fun tag =>
      (t.primitives.type? tag).isNone with
    | some tag => .error (.primitiveNotRegistered tag)
    | none => .ok () := by
  unfold OperandTypes.check
  induction OperandKind.primitives with
  | nil => rfl
  | cons k ks ih =>
    rw [List.forM_eq_forM, List.forM_cons]
    cases hk : k.tag? with
    | none =>
      rw [List.filterMap_cons_none hk]
      exact ih
    | some tag =>
      cases hty : t.primitives.type? tag with
      | none => simp [Primitives.require, hk, hty, Except.map, bind, Except.bind]
      | some ty =>
        simp only [Primitives.require, hty, Except.map, List.filterMap_cons_some hk, List.find?_cons,
          Option.isNone_some]
        exact ih

theorem OperandTypes.Sound.check {s : Store} {t : OperandTypes} (h : t.Sound s) :
    t.check = .ok () := by
  have hnone : (OperandKind.primitives.filterMap OperandKind.tag?).find? (fun tag =>
      (t.primitives.type? tag).isNone) = none := by
    refine List.find?_eq_none.2 fun tag htag => ?_
    obtain ⟨k, -, hk⟩ := List.mem_filterMap.1 htag
    simp [Option.isSome_iff_ne_none.1 (h.registered k tag hk)]
  rw [t.check_eq, hnone]

theorem World.enterBuiltins_entered {w : World} {root mc predef : SymbolId} {t : OperandTypes}
    (h : w.store.Sound root mc) (hp : w.store.InPhase predef .completed)
    (hmc : w.store.HasSymbol mc) (ht : t.Sound w.store) :
    ∃ id w', w.enterBuiltins t predef mc = (.ok id, w') ∧
      w'.store.Declares id (.operator Builtin.nullCheck.code) Builtin.nullCheck.name predef ∧
      OperatorsEntered root mc predef w.store (Builtin.rows.map t.entry) w'.store := by
  have htypes : ∀ (rows : List OperatorRow) (s : Store), t.Sound s → ∀ e ∈ rows.map t.entry,
      (∀ ty ∈ e.params, s.HasType ty) ∧ s.HasType e.result := by
    intro rows s hs e he
    obtain ⟨row, -, rfl⟩ := List.mem_map.1 he
    refine ⟨fun ty hty => ?_, hs.hasType row.result⟩
    obtain ⟨k, -, rfl⟩ := List.mem_map.1 hty
    exact hs.hasType k
  obtain ⟨ids₁, w₁, hrun₁, h₁⟩ := enterOperators_entered h hp hmc (htypes Builtin.unaries _ ht)
  have ht₁ := ht.mono h₁.keeps
  obtain ⟨hparams, hresult⟩ := htypes [Builtin.nullCheck] _ ht₁ _ (List.mem_cons_self ..)
  have h₂ := OperatorsEntered.withOperator h₁.sound h₁.completed (h₁.keeps.hasSymbol hmc) hparams
    hresult
  have hid : (w₁.store.withOperator predef mc (t.entry Builtin.nullCheck)).Declares
      w₁.store.nextSymbol (.operator Builtin.nullCheck.code) Builtin.nullCheck.name predef := by
    refine (keeps_mapMembers ..).declares ⟨w₁.store.nextType, ?_⟩
    rw [addOperator_eq, outline?, symbol?_extend, if_pos rfl]
    rfl
  have h₁₂ := h₁.append h₂
  obtain ⟨ids₃, w₃, hrun₃, h₃⟩ := enterOperators_entered
    (w := { w₁.see (t.entry Builtin.nullCheck).name with
      store := w₁.store.withOperator predef mc (t.entry Builtin.nullCheck) })
    h₂.sound h₂.completed (h₁₂.keeps.hasSymbol hmc) (htypes Builtin.binaries _ (ht₁.mono h₂.keeps))
  refine ⟨w₁.store.nextSymbol, w₃, ?_, h₃.keeps.declares hid, ?_⟩
  · obtain ⟨sc, hm, -⟩ := h₁.completed.members?
    simp only [enterBuiltins, ht.check, hrun₁, enterOperator_eq hm, hrun₃]
  · have hrows : Builtin.rows.map t.entry = Builtin.unaries.map t.entry ++
        [t.entry Builtin.nullCheck] ++ Builtin.binaries.map t.entry := by
      simp [Builtin.rows]
    exact hrows ▸ h₁₂.append h₃

end SymbolTable
