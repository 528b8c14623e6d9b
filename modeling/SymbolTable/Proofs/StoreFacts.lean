/-
Reading a store after it has changed.

Both arenas only grow, and a symbol is changed in place. So what an
operation does is said by what `symbol?` and `type?` answer after it. The
outline of a symbol is what no operation changes once the sentinels stand,
and `Keeps` says that a store still has every outline, every type and every
registered name of an earlier one.
-/
import Mathlib.Data.List.Nodup
import SymbolTable.Standin

namespace SymbolTable

namespace OrderedMap

variable {κ α : Type} [DecidableEq κ]

theorem get?_insert (m : OrderedMap κ α) (k k' : κ) (v : α) :
    (m.insert k v).get? k' = if k' = k then some v else m.get? k' := by
  split
  · next h => rw [h, get?_insert_self]
  · next h => exact get?_insert_other m v h

theorem get?_erase (m : OrderedMap κ α) (k k' : κ) :
    (m.erase k).get? k' = if k' = k then none else m.get? k' := by
  simp only [get?, erase, List.find?_filter]
  split
  · next h => simp [h]
  · next h =>
    congr 2
    funext p
    by_cases hp : p.1 = k' <;> simp [hp, h]

theorem mem_putEntry {k k' : κ} {v v' : α} {l : List (κ × α)} (h : (k', v') ∈ putEntry k v l) :
    (k' = k ∧ v' = v) ∨ (k', v') ∈ l := by
  induction l with
  | nil => simpa [putEntry] using h
  | cons p l ih =>
    obtain ⟨a, b⟩ := p
    by_cases ha : a = k
    · simp only [putEntry, ha, if_true, List.mem_cons, Prod.mk.injEq] at h
      rcases h with h | h
      · exact .inl h
      · exact .inr (List.mem_cons_of_mem _ h)
    · simp only [putEntry, ha, if_false, List.mem_cons] at h
      rcases h with h | h
      · exact .inr (by simp [h])
      · exact (ih h).imp_right (List.mem_cons_of_mem _)

theorem mem_entries_of_get? {m : OrderedMap κ α} {k : κ} {v : α} (h : m.get? k = some v) :
    (k, v) ∈ m.entries := by
  obtain ⟨⟨k', v'⟩, hf, rfl⟩ := Option.map_eq_some_iff.1 h
  have hk : k' = k := by simpa using List.find?_some hf
  exact hk ▸ List.mem_of_find?_eq_some hf

theorem get?_of_mem_entries {m : OrderedMap κ α} {k : κ} {v : α} (h : (k, v) ∈ m.entries) :
    m.get? k = some v := by
  have hfound : (m.entries.find? fun p => decide (p.1 = k)).isSome := by
    rw [List.find?_isSome]
    exact ⟨_, h, decide_eq_true rfl⟩
  obtain ⟨p, hp⟩ := Option.isSome_iff_exists.1 hfound
  have hk : p.1 = k := by simpa using List.find?_some hp
  obtain rfl := List.inj_on_of_nodup_map m.distinct (List.mem_of_find?_eq_some hp) h hk
  rw [get?, hp]
  rfl

theorem isSome_get?_iff {m : OrderedMap κ α} {k : κ} : (m.get? k).isSome ↔ k ∈ m.keys := by
  simp [get?, keys, List.find?_isSome]

theorem size_insert_of_none {m : OrderedMap κ α} {k : κ} (h : m.get? k = none) (v : α) :
    (m.insert k v).size = m.size + 1 := by
  have hk : k ∉ m.keys := by simp [← isSome_get?_iff, h]
  have hkeys := m.keys_insert k v
  rw [if_neg hk] at hkeys
  simpa [keys, size] using congrArg List.length hkeys

/-- Maps with the same keys list them in some order each. -/
theorem keys_perm {m m' : OrderedMap κ α} (h : ∀ k, (m.get? k).isSome ↔ (m'.get? k).isSome) :
    m.keys.Perm m'.keys :=
  (List.perm_ext_iff_of_nodup m.distinct m'.distinct).2 fun k =>
    isSome_get?_iff.symm.trans ((h k).trans isSome_get?_iff)

end OrderedMap

/-- What a scope holds after an entry: what it held, and the symbol entered. -/
theorem Scope.mem_toList_enter {sc : Scope} {name n : Name} {sym x : SymbolId} {xs : List SymbolId}
    (h : (n, xs) ∈ (sc.enter name sym).toList) (hx : x ∈ xs) :
    (n = name ∧ x = sym) ∨ ∃ ys, (n, ys) ∈ sc.toList ∧ x ∈ ys := by
  rcases OrderedMap.mem_putEntry h with ⟨rfl, rfl⟩ | h
  · rcases List.mem_append.1 hx with hx | hx
    · cases hg : sc.groups.get? n with
      | none => simp [hg] at hx
      | some ys =>
        simp only [hg, Option.getD_some] at hx
        exact .inr ⟨ys, OrderedMap.mem_entries_of_get? hg, hx⟩
    · exact .inl ⟨rfl, by simpa using hx⟩
  · exact .inr ⟨xs, h, hx⟩

/-- The signature of a method type. -/
def TyForm.signature? : TyForm → Option Signature
  | .method g => some g
  | _ => none

namespace Store

variable {s s' s'' : Store}

/-- The symbol is one of the store's. -/
def HasSymbol (s : Store) (id : SymbolId) : Prop := id.index < s.symbols.size

/-- The type is one of the store's. -/
def HasType (s : Store) (ty : TypeId) : Prop := ty.index < s.types.size

instance (s : Store) (id : SymbolId) : Decidable (s.HasSymbol id) :=
  inferInstanceAs (Decidable (id.index < s.symbols.size))

instance (s : Store) (ty : TypeId) : Decidable (s.HasType ty) :=
  inferInstanceAs (Decidable (ty.index < s.types.size))

theorem hasSymbol_of_symbol? {id : SymbolId} {sym : Symbol} (h : s.symbol? id = some sym) :
    s.HasSymbol id := (Array.getElem?_eq_some_iff.1 h).1

theorem hasType_of_type? {ty : TypeId} {t : Ty} (h : s.type? ty = some t) : s.HasType ty :=
  (Array.getElem?_eq_some_iff.1 h).1

theorem HasSymbol.symbol? {id : SymbolId} (h : s.HasSymbol id) : ∃ sym, s.symbol? id = some sym :=
  ⟨_, Array.getElem?_eq_getElem h⟩

theorem HasType.type? {ty : TypeId} (h : s.HasType ty) : ∃ t, s.type? ty = some t :=
  ⟨_, Array.getElem?_eq_getElem h⟩

theorem hasType_of_declaring? {ty : TypeId} {d : SymbolId} (h : s.declaring? ty = some d) :
    s.HasType ty := by
  obtain ⟨t, ht, -⟩ := Option.bind_eq_some_iff.1 h
  exact hasType_of_type? ht

theorem nameOf_of_symbol? {id : SymbolId} {sym : Symbol} (h : s.symbol? id = some sym) :
    s.nameOf id = sym.name := by simp [nameOf, h]

theorem typeOf_of_symbol? {id : SymbolId} {sym : Symbol} (h : s.symbol? id = some sym) :
    s.typeOf id = sym.ty := by simp [typeOf, h]

theorem classInfo?_eq_some {id : SymbolId} {info : ClassInfo} :
    s.classInfo? id = some info ↔ ∃ sym, s.symbol? id = some sym ∧ sym.body = .cls info := by
  simp only [classInfo?, Option.bind_eq_some_iff, Symbol.classInfo?]
  refine exists_congr fun sym => and_congr_right fun _ => ?_
  split <;> simp_all

theorem hasSymbol_of_isSome_classInfo? {id : SymbolId} (h : (s.classInfo? id).isSome) :
    s.HasSymbol id := by
  obtain ⟨info, hinfo⟩ := Option.isSome_iff_exists.1 h
  obtain ⟨sym, hs, -⟩ := classInfo?_eq_some.1 hinfo
  exact hasSymbol_of_symbol? hs

theorem completer?_eq_some {id : SymbolId} {c : Completer} : s.completer? id = some c ↔
    ∃ sym info, s.symbol? id = some sym ∧ sym.body = .cls info ∧ info.completer = some c := by
  simp only [completer?, Option.bind_eq_some_iff, classInfo?_eq_some]
  constructor
  · intro h
    obtain ⟨info, ⟨sym, hs, hb⟩, hc⟩ := h
    exact ⟨sym, info, hs, hb, hc⟩
  · intro h
    obtain ⟨sym, info, hs, hb, hc⟩ := h
    exact ⟨info, ⟨sym, hs, hb⟩, hc⟩

/-! ## What a change leaves -/

theorem symbol?_addSymbol (s : Store) (symbol : Symbol) (id : SymbolId) :
    (s.addSymbol symbol).2.symbol? id =
      if id = s.nextSymbol then some symbol else s.symbol? id := by
  obtain ⟨i⟩ := id
  simp [addSymbol, symbol?, nextSymbol, Array.getElem?_push]

theorem type?_addType (s : Store) (t : Ty) (ty : TypeId) :
    (s.addType t).2.type? ty = if ty = s.nextType then some t else s.type? ty := by
  obtain ⟨i⟩ := ty
  simp [addType, type?, nextType, Array.getElem?_push]

theorem symbol?_update (s : Store) (id x : SymbolId) (f : Symbol → Symbol) :
    (s.update id f).symbol? x = if x = id then (s.symbol? x).map f else s.symbol? x := by
  split
  · next h => rw [h, symbol?_update_self]
  · next h => exact symbol?_update_other s f h

theorem class?_insertClass (s : Store) (flat n : Name) (id : SymbolId) :
    (s.insertClass flat id).class? n = if n = flat then some id else s.class? n :=
  OrderedMap.get?_insert ..

theorem package?_insertPackage (s : Store) (full n : Name) (id : SymbolId) :
    (s.insertPackage full id).package? n = if n = full then some id else s.package? n :=
  OrderedMap.get?_insert ..

/-! ## Members after an entry -/

theorem members?_enter {id : SymbolId} {sc : Scope} (h : s.members? id = some sc) (name : Name)
    (member : SymbolId) :
    (s.update id (Symbol.mapMembers fun scope => scope.enter name member)).members? id =
      some (sc.enter name member) := by
  obtain ⟨sym, hs, hm⟩ := Option.bind_eq_some_iff.1 h
  simp only [members?, symbol?_update_self, hs, Option.map_some, Option.bind_some]
  cases hb : sym.body <;> simp_all [Symbol.mapMembers, Symbol.members?]

/-- What an ordinary scope has after an entry: what it had, and the symbol entered. -/
theorem lookupMember_enter {id : SymbolId} {sc : Scope} (h : s.members? id = some sc)
    (herr : sc.isError = false) (name n : Name) (member : SymbolId) :
    (s.update id (Symbol.mapMembers fun scope => scope.enter name member)).lookupMember id n =
      s.lookupMember id n ++ if n = name then [member] else [] := by
  simp only [lookupMember, h, members?_enter h]
  split
  · next hn => rw [hn, Scope.lookup_enter_self herr]
  · next hn => rw [Scope.lookup_enter_other _ _ hn, List.append_nil]

theorem lookupMember_of_symbol? {id : SymbolId} (h : s'.symbol? id = s.symbol? id) (n : Name) :
    s'.lookupMember id n = s.lookupMember id n := by
  simp only [lookupMember, members?, h]

/-! ## A type and its symbol -/

/-- One more type and one more symbol, as every constructor but that of variables adds them. -/
def extend (s : Store) (t : Ty) (symbol : Symbol) : Store := ((s.addType t).2.addSymbol symbol).2

theorem addPackage_eq (s : Store) (name full : Name) (owner : Option SymbolId) :
    s.addPackage name full owner = (s.nextSymbol, s.extend ⟨.package, some s.nextSymbol⟩
      { modifiers := .empty, name, owner, ty := s.nextType, sentinel := none,
        body := .package ⟨full, .members s.nextSymbol, none⟩ }) := rfl

theorem addMethod_eq (s : Store) (modifiers : Modifiers) (name : Name) (signature : Signature)
    (owner methodClass : SymbolId) :
    s.addMethod modifiers name signature owner methodClass =
      (s.nextSymbol, s.extend ⟨.method signature, some methodClass⟩
        { modifiers, name, owner := some owner, ty := s.nextType, sentinel := none,
          body := .method }) := rfl

theorem addOperator_eq (s : Store) (name : Name) (signature : Signature) (code : OperatorCode)
    (owner methodClass : SymbolId) :
    s.addOperator name signature code owner methodClass =
      (s.nextSymbol, s.extend ⟨.method signature, some methodClass⟩
        { modifiers := .ofFlags [.isPublic, .isStatic], name, owner := some owner,
          ty := s.nextType, sentinel := none, body := .operator code }) := rfl

theorem symbol?_extend (s : Store) (t : Ty) (symbol : Symbol) (id : SymbolId) :
    (s.extend t symbol).symbol? id = if id = s.nextSymbol then some symbol else s.symbol? id :=
  symbol?_addSymbol (s.addType t).2 symbol id

theorem type?_extend (s : Store) (t : Ty) (symbol : Symbol) (ty : TypeId) :
    (s.extend t symbol).type? ty = if ty = s.nextType then some t else s.type? ty :=
  type?_addType s t ty

theorem HasSymbol.ne_next {id : SymbolId} (h : s.HasSymbol id) : id ≠ s.nextSymbol := by
  intro heq
  rw [heq] at h
  exact Nat.lt_irrefl _ h

theorem HasType.ne_next {ty : TypeId} (h : s.HasType ty) : ty ≠ s.nextType := by
  intro heq
  rw [heq] at h
  exact Nat.lt_irrefl _ h

theorem symbol?_extend_old {t : Ty} {symbol : Symbol} {id : SymbolId} (h : s.HasSymbol id) :
    (s.extend t symbol).symbol? id = s.symbol? id := by
  rw [symbol?_extend, if_neg h.ne_next]

theorem type?_extend_old {t : Ty} {symbol : Symbol} {ty : TypeId} (h : s.HasType ty) :
    (s.extend t symbol).type? ty = s.type? ty := by
  rw [type?_extend, if_neg h.ne_next]

/-- Changing the element just added is adding the changed element. -/
theorem modify_push {α : Type} (a : Array α) (x : α) (f : α → α) :
    (a.push x).modify a.size f = a.push (f x) := by
  apply Array.ext_getElem?
  intro i
  rw [Array.getElem?_modify, Array.getElem?_push, Array.getElem?_push]
  by_cases hi : i = a.size
  · subst hi; simp
  · simp [hi, Ne.symm hi]

/-- Changing an element and adding another may change places. -/
theorem modify_push_of_lt {α : Type} {a : Array α} {k : Nat} (h : k < a.size) (x : α) (f : α → α) :
    (a.push x).modify k f = (a.modify k f).push x := by
  apply Array.ext_getElem?
  intro i
  have hne : a.size ≠ k := Nat.ne_of_gt h
  simp only [Array.getElem?_modify, Array.getElem?_push, Array.size_modify]
  split <;> split <;> simp_all

theorem addSymbol_update (s : Store) (symbol : Symbol) (f : Symbol → Symbol) :
    (s.addSymbol symbol).2.update s.nextSymbol f = (s.addSymbol (f symbol)).2 := by
  simp only [update, addSymbol, nextSymbol, modify_push]

theorem extend_update (s : Store) (t : Ty) (symbol : Symbol) (f : Symbol → Symbol) :
    (s.extend t symbol).update s.nextSymbol f = s.extend t (f symbol) :=
  addSymbol_update (s.addType t).2 symbol f

theorem updateClass_eq {id : SymbolId} {info : ClassInfo} (h : s.classInfo? id = some info)
    (f : ClassInfo → ClassInfo) :
    s.updateClass id f = .ok (s.update id (Symbol.mapClass f)) := by
  simp [updateClass, h]

theorem updateClass_addSymbol {symbol : Symbol} {info : ClassInfo} (hb : symbol.body = .cls info)
    (f : ClassInfo → ClassInfo) : (s.addSymbol symbol).2.updateClass s.nextSymbol f =
      .ok (s.addSymbol (symbol.mapClass f)).2 := by
  have hc : (s.addSymbol symbol).2.classInfo? s.nextSymbol = some info :=
    classInfo?_eq_some.2 ⟨symbol, symbol?_addSymbol_self s symbol, hb⟩
  rw [updateClass_eq hc, addSymbol_update]

theorem updateClass_extend {t : Ty} {symbol : Symbol} {info : ClassInfo}
    (hb : symbol.body = .cls info) (f : ClassInfo → ClassInfo) :
    (s.extend t symbol).updateClass s.nextSymbol f = .ok (s.extend t (symbol.mapClass f)) :=
  updateClass_addSymbol (s := (s.addType t).2) hb f

end Store

/-! ## Outlines -/

/-- What a symbol's body keeps for good: its names and what it is. -/
def SymbolBody.outline : SymbolBody → SymbolBody
  | .package info => .package { info with members := .members ⟨0⟩ }
  | .cls info => .cls { ClassInfo.named info.fullName info.flatName with erroneous := info.erroneous }
  | body => body

/-- What a symbol keeps for good. -/
def Symbol.outline (sym : Symbol) : Symbol :=
  { sym with modifiers := .empty, body := sym.body.outline }

namespace Symbol

/-- The flat name of a class; any other symbol goes by its qualified name. -/
def key (sym : Symbol) : Name :=
  match sym.body with
  | .cls info => info.flatName
  | _ => sym.qualifiedName

variable {sym sym' : Symbol}

theorem name_of_outline (h : sym'.outline = sym.outline) : sym'.name = sym.name := by
  simpa [outline] using congrArg Symbol.name h

theorem ty_of_outline (h : sym'.outline = sym.outline) : sym'.ty = sym.ty := by
  simpa [outline] using congrArg Symbol.ty h

theorem owner_of_outline (h : sym'.outline = sym.outline) : sym'.owner = sym.owner := by
  simpa [outline] using congrArg Symbol.owner h

theorem kind_of_outline (h : sym'.outline = sym.outline) : sym'.kind = sym.kind := by
  have key : ∀ b : SymbolBody, b.outline.kind = b.kind := by intro b; cases b <;> rfl
  have hb : sym'.body.outline = sym.body.outline := congrArg Symbol.body h
  unfold kind
  rw [← key, hb, key]

theorem qualifiedName_of_outline (h : sym'.outline = sym.outline) :
    sym'.qualifiedName = sym.qualifiedName := by
  have key : ∀ sym : Symbol, sym.outline.qualifiedName = sym.qualifiedName := by
    intro sym
    simp only [qualifiedName, outline]
    cases sym.body <;> rfl
  rw [← key, h, key]

theorem key_of_outline (h : sym'.outline = sym.outline) : sym'.key = sym.key := by
  have key : ∀ sym : Symbol, sym.outline.key = sym.key := by
    intro sym
    simp only [Symbol.key, qualifiedName, outline]
    cases sym.body <;> rfl
  rw [← key, h, key]

theorem classInfo_of_outline (h : sym'.outline = sym.outline) {info : ClassInfo}
    (hb : sym.body = .cls info) : ∃ info', sym'.body = .cls info' ∧ info'.flatName = info.flatName ∧
      info'.fullName = info.fullName ∧ info'.erroneous = info.erroneous := by
  have h' : sym'.body.outline = sym.body.outline := congrArg Symbol.body h
  rw [hb] at h'
  cases hb' : sym'.body with
  | cls info' =>
    rw [hb'] at h'
    simp only [SymbolBody.outline, ClassInfo.named, SymbolBody.cls.injEq, ClassInfo.mk.injEq] at h'
    exact ⟨info', rfl, h'.2.1, h'.1, h'.2.2.2.2.2.2.2.2⟩
  | _ => rw [hb'] at h'; simp [SymbolBody.outline] at h'

theorem packageInfo_of_outline (h : sym'.outline = sym.outline) {info : PackageInfo}
    (hb : sym.body = .package info) : ∃ info', sym'.body = .package info' ∧
      info'.fullName = info.fullName := by
  have h' : sym'.body.outline = sym.body.outline := congrArg Symbol.body h
  rw [hb] at h'
  cases hb' : sym'.body with
  | package info' =>
    rw [hb'] at h'
    simp only [SymbolBody.outline, SymbolBody.package.injEq, PackageInfo.mk.injEq] at h'
    exact ⟨info', rfl, h'.1⟩
  | _ => rw [hb'] at h'; simp [SymbolBody.outline] at h'

@[simp] theorem outline_mapMembers (f : Scope → Scope) (sym : Symbol) :
    (sym.mapMembers f).outline = sym.outline := by
  unfold mapMembers
  split <;> simp_all [outline, SymbolBody.outline, ClassInfo.named]

theorem outline_mapClass {f : ClassInfo → ClassInfo} (hf : ∀ info, (f info).fullName = info.fullName ∧
    (f info).flatName = info.flatName ∧ (f info).erroneous = info.erroneous) (sym : Symbol) :
    (sym.mapClass f).outline = sym.outline := by
  unfold mapClass
  split
  · next info hb =>
    obtain ⟨h1, h2, h3⟩ := hf info
    simp [outline, hb, SymbolBody.outline, ClassInfo.named, h1, h2, h3]
  · rfl

end Symbol

namespace Store

variable {s s' s'' : Store}

/-! ## What a store keeps -/

def outline? (s : Store) (id : SymbolId) : Option Symbol := (s.symbol? id).map Symbol.outline

def form? (s : Store) (ty : TypeId) : Option TyForm := (s.type? ty).map (·.form)

theorem signature?_eq_form? (s : Store) (ty : TypeId) :
    s.signature? ty = (s.form? ty).bind TyForm.signature? := by
  unfold signature? form?
  rcases s.type? ty with _ | ⟨form, d⟩
  · rfl
  · cases form <;> rfl

theorem signature?_of_form? {ty : TypeId} (h : s'.form? ty = s.form? ty) :
    s'.signature? ty = s.signature? ty := by
  rw [signature?_eq_form?, h, ← signature?_eq_form?]

theorem signature?_eq_some {ty : TypeId} {g : Signature} :
    s.signature? ty = some g ↔ s.form? ty = some (.method g) := by
  rw [signature?_eq_form?]
  cases s.form? ty with
  | none => simp
  | some form => cases form <;> simp [TyForm.signature?]

/-- Whatever `s` has, `s'` has too: the outlines of its symbols, the forms and the declaring symbols
of its types, its registered classes and packages. -/
structure Keeps (s s' : Store) : Prop where
  outline : ∀ {id o}, s.outline? id = some o → s'.outline? id = some o
  form : ∀ {ty f}, s.form? ty = some f → s'.form? ty = some f
  declaring : ∀ {ty d}, s.declaring? ty = some d → s'.declaring? ty = some d
  cls : ∀ {n id}, s.class? n = some id → s'.class? n = some id
  package : ∀ {n id}, s.package? n = some id → s'.package? n = some id

theorem Keeps.refl (s : Store) : s.Keeps s := ⟨id, id, id, id, id⟩

theorem Keeps.trans (h : s.Keeps s') (h' : s'.Keeps s'') : s.Keeps s'' :=
  ⟨fun a => h'.outline (h.outline a), fun a => h'.form (h.form a),
    fun a => h'.declaring (h.declaring a), fun a => h'.cls (h.cls a),
    fun a => h'.package (h.package a)⟩

theorem Keeps.symbol? (h : s.Keeps s') {id : SymbolId} {sym : Symbol}
    (hs : s.symbol? id = some sym) :
    ∃ sym', s'.symbol? id = some sym' ∧ sym'.outline = sym.outline := by
  have ho : s.outline? id = some sym.outline := by simp [outline?, hs]
  exact Option.map_eq_some_iff.1 (h.outline ho)

theorem Keeps.type? (h : s.Keeps s') {ty : TypeId} {t : Ty} (ht : s.type? ty = some t) :
    ∃ t', s'.type? ty = some t' ∧ t'.form = t.form := by
  have hf : s.form? ty = some t.form := by simp [form?, ht]
  exact Option.map_eq_some_iff.1 (h.form hf)

theorem Keeps.hasSymbol (h : s.Keeps s') {id : SymbolId} (hs : s.HasSymbol id) : s'.HasSymbol id := by
  obtain ⟨sym, hsym⟩ := hs.symbol?
  obtain ⟨sym', hsym', -⟩ := h.symbol? hsym
  exact hasSymbol_of_symbol? hsym'

theorem Keeps.hasType (h : s.Keeps s') {ty : TypeId} (ht : s.HasType ty) : s'.HasType ty := by
  obtain ⟨t, ht⟩ := ht.type?
  obtain ⟨t', ht', -⟩ := h.type? ht
  exact hasType_of_type? ht'

theorem Keeps.nameOf (h : s.Keeps s') {id : SymbolId} (hs : s.HasSymbol id) :
    s'.nameOf id = s.nameOf id := by
  obtain ⟨sym, hsym⟩ := hs.symbol?
  obtain ⟨sym', hsym', ho⟩ := h.symbol? hsym
  rw [nameOf_of_symbol? hsym, nameOf_of_symbol? hsym']
  exact Symbol.name_of_outline ho

theorem Keeps.typeOf (h : s.Keeps s') {id : SymbolId} (hs : s.HasSymbol id) :
    s'.typeOf id = s.typeOf id := by
  obtain ⟨sym, hsym⟩ := hs.symbol?
  obtain ⟨sym', hsym', ho⟩ := h.symbol? hsym
  rw [typeOf_of_symbol? hsym, typeOf_of_symbol? hsym']
  exact Symbol.ty_of_outline ho

theorem Keeps.classInfo? (h : s.Keeps s') {id : SymbolId} {info : ClassInfo}
    (hc : s.classInfo? id = some info) :
    ∃ info', s'.classInfo? id = some info' ∧ info'.flatName = info.flatName := by
  obtain ⟨sym, hsym, hb⟩ := classInfo?_eq_some.1 hc
  obtain ⟨sym', hsym', ho⟩ := h.symbol? hsym
  obtain ⟨info', hb', hflat, -⟩ := Symbol.classInfo_of_outline ho hb
  exact ⟨info', classInfo?_eq_some.2 ⟨sym', hsym', hb'⟩, hflat⟩

theorem Keeps.isSome_classInfo? (h : s.Keeps s') {id : SymbolId} (hc : (s.classInfo? id).isSome) :
    (s'.classInfo? id).isSome := by
  obtain ⟨info, hinfo⟩ := Option.isSome_iff_exists.1 hc
  obtain ⟨info', hinfo', -⟩ := h.classInfo? hinfo
  simp [hinfo']

/-! ## Every change keeps what there was -/

theorem keeps_addSymbol (s : Store) (symbol : Symbol) : s.Keeps (s.addSymbol symbol).2 where
  outline {id o} h := by
    obtain ⟨sym, hs, rfl⟩ := Option.map_eq_some_iff.1 h
    have hne := (hasSymbol_of_symbol? hs).ne_next
    simp [outline?, symbol?_addSymbol, hne, hs]
  form h := h
  declaring h := h
  cls h := h
  package h := h

theorem keeps_addType (s : Store) (t : Ty) : s.Keeps (s.addType t).2 where
  outline h := h
  form {ty f} h := by
    obtain ⟨t', ht, rfl⟩ := Option.map_eq_some_iff.1 h
    have hne := (hasType_of_type? ht).ne_next
    simp [form?, type?_addType, hne, ht]
  declaring {ty d} h := by
    have hne := (hasType_of_declaring? h).ne_next
    simpa only [declaring?, type?_addType, hne, if_false] using h
  cls h := h
  package h := h

theorem keeps_extend (s : Store) (t : Ty) (symbol : Symbol) : s.Keeps (s.extend t symbol) :=
  (s.keeps_addType t).trans ((s.addType t).2.keeps_addSymbol symbol)

theorem keeps_update (s : Store) (id : SymbolId) {f : Symbol → Symbol}
    (hf : ∀ sym, s.symbol? id = some sym → (f sym).outline = sym.outline) :
    s.Keeps (s.update id f) where
  outline {x o} h := by
    obtain ⟨sym, hs, rfl⟩ := Option.map_eq_some_iff.1 h
    by_cases hx : x = id
    · subst hx
      simp [outline?, symbol?_update, hs, hf sym hs]
    · simp [outline?, symbol?_update, hx, hs]
  form h := h
  declaring h := h
  cls h := h
  package h := h

theorem keeps_mapMembers (s : Store) (id : SymbolId) (f : Scope → Scope) :
    s.Keeps (s.update id (Symbol.mapMembers f)) :=
  keeps_update s id fun _ _ => Symbol.outline_mapMembers f _

theorem keeps_mapClass (s : Store) (id : SymbolId) {f : ClassInfo → ClassInfo}
    (hf : ∀ info, (f info).fullName = info.fullName ∧ (f info).flatName = info.flatName ∧
      (f info).erroneous = info.erroneous) : s.Keeps (s.update id (Symbol.mapClass f)) :=
  keeps_update s id fun _ _ => Symbol.outline_mapClass hf _

theorem keeps_setCompleter (s : Store) (id : SymbolId) (c : Completer) :
    s.Keeps (s.setCompleter id c) := keeps_mapClass s id (by simp)

theorem keeps_dropCompleter (s : Store) (id : SymbolId) : s.Keeps (s.dropCompleter id) :=
  keeps_mapClass s id (by simp)

theorem keeps_recordFailure (s : Store) (id : SymbolId) (kind : FailureKind) :
    s.Keeps (s.recordFailure id kind) := keeps_mapClass s id (by simp)

theorem keeps_insertClass {flat : Name} (id : SymbolId) (h : s.class? flat = none) :
    s.Keeps (s.insertClass flat id) where
  outline h := h
  form h := h
  declaring h := h
  cls {n id'} h' := by
    have hne : n ≠ flat := by
      intro hn
      simp [hn, h] at h'
    rw [class?_insertClass, if_neg hne, h']
  package h := h

theorem keeps_insertPackage {full : Name} (id : SymbolId) (h : s.package? full = none) :
    s.Keeps (s.insertPackage full id) where
  outline h := h
  form h := h
  declaring h := h
  cls h := h
  package {n id'} h' := by
    have hne : n ≠ full := by
      intro hn
      simp [hn, h] at h'
    rw [package?_insertPackage, if_neg hne, h']

end Store

end SymbolTable
