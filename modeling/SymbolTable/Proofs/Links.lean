/-
Referential integrity of a store.

Every identity that a symbol or a type holds is one of the store's, and the
links between symbols and types go both ways. `Linked` says so of a whole
store; it reads a store only through what `Keeps` keeps, so an operation
keeps it as soon as what it adds or changes is linked.
-/
import SymbolTable.Proofs.Completing

namespace SymbolTable

/-! ## The types that are mentioned -/

def ClassInfo.types (info : ClassInfo) : List TypeId :=
  info.supertype.toList ++ info.interfaces.getD [] ++ info.typeParams.getD []

def SymbolBody.types : SymbolBody → List TypeId
  | .cls info => info.types
  | _ => []

/-- Every type that a symbol mentions: its own, and those that its class data name. -/
def Symbol.types (sym : Symbol) : List TypeId := sym.ty :: sym.body.types

def Signature.types (g : Signature) : List TypeId := g.params ++ g.result :: g.thrown

/-- Every type that a type mentions. -/
def TyForm.types : TyForm → List TypeId
  | .error failed => failed.toList
  | .method g => g.types
  | _ => []

/-! ## Links -/

/-- What a completer holds is in the store, and its methods belong to the method pseudo-class. -/
def Completer.Linked (s : Store) (methodClass : SymbolId) : Completer → Prop
  | .emptyInterface object => s.HasType object
  | .box plan => s.HasType plan.primitive ∧ s.HasType plan.object ∧ plan.methodClass = methodClass
  | .orElse base fallback => base.Linked s methodClass ∧ fallback.Linked s methodClass
  | .modify _ next | .openMembers next | .request _ next | .complete _ next | .rethrow next =>
    next.Linked s methodClass
  | .install completer next => completer.Linked s methodClass ∧ next.Linked s methodClass
  | .done | .classFile _ | .notFound _ | .badClassFile _ _ => True

/-- A scope belongs to the symbol it hangs on, and lists symbols of the store under their names. -/
structure Scope.Linked (s : Store) (id : SymbolId) (sc : Scope) : Prop where
  owner : sc.owner = id
  entries : ∀ n xs, (n, xs) ∈ sc.toList → ∀ x ∈ xs, s.HasSymbol x ∧ s.nameOf x = n

/-- What is known of the class `id` mentions types of the store only. -/
structure ClassInfo.Linked (s : Store) (methodClass id : SymbolId) (info : ClassInfo) : Prop where
  supertype : ∀ ty, info.supertype = some ty → s.HasType ty
  interfaces : ∀ ty ∈ info.interfaces.getD [], s.HasType ty
  typeParams : ∀ ty ∈ info.typeParams.getD [], s.HasType ty
  members : ∀ sc, info.members = some sc → sc.Linked s id
  completer : ∀ c, info.completer = some c → c.Linked s methodClass

/-- A symbol whose owner came before it, whose type points back at it if it declares one, and
which holds nothing that is not in the store. -/
structure Symbol.Linked (s : Store) (root methodClass id : SymbolId) (sym : Symbol) : Prop where
  rooted : sym.owner = none ↔ id = root
  owner : ∀ o, sym.owner = some o → o.index < id.index
  types : ∀ ty ∈ sym.types, s.HasType ty
  declared : sym.kind = .cls ∨ sym.kind = .error ∨ sym.kind = .package →
    s.declaring? sym.ty = some id
  scope : ∀ sc, sym.members? = some sc → sc.Linked s id
  completer : ∀ info c, sym.body = .cls info → info.completer = some c → c.Linked s methodClass

/-- A type that is declared, unless it is the absent type: by the method pseudo-class if it is a
method's, otherwise by a symbol of that very type. -/
structure Ty.Linked (s : Store) (methodClass : SymbolId) (ty : TypeId) (t : Ty) : Prop where
  types : ∀ x ∈ t.form.types, s.HasType x
  declared : ty ≠ .absent → ∃ d, t.symbol = some d ∧ s.HasSymbol d ∧
    (t.tag = .method → d = methodClass) ∧ (t.tag ≠ .method → s.typeOf d = ty)

namespace Store

variable {s s' : Store} {root mc : SymbolId}

/-- Every symbol and every type of the store is linked. -/
structure Linked (s : Store) (root mc : SymbolId) : Prop where
  hasRoot : s.HasSymbol root
  symbols : ∀ id sym, s.symbol? id = some sym → sym.Linked s root mc id
  types : ∀ ty t, s.type? ty = some t → t.Linked s mc ty

/-- `o` is the owner of `id`. -/
def OwnedBy (s : Store) (id o : SymbolId) : Prop :=
  ∃ sym, s.symbol? id = some sym ∧ sym.owner = some o

/-- Owners come earlier, so going from owner to owner ends, and it ends at the root. -/
theorem Linked.ownedBy_root (h : s.Linked root mc) {id : SymbolId} (hid : s.HasSymbol id) :
    Relation.ReflTransGen s.OwnedBy id root := by
  obtain ⟨n⟩ := id
  induction n using Nat.strongRecOn with
  | _ n ih =>
    obtain ⟨sym, hs⟩ := hid.symbol?
    have hl := h.symbols ⟨n⟩ sym hs
    cases ho : sym.owner with
    | none =>
      rw [← hl.rooted.1 ho]
    | some o =>
      have hlt : o.index < n := hl.owner o ho
      exact .head ⟨sym, hs, ho⟩ (ih o.index hlt (Nat.lt_trans hlt hid))

end Store

/-! ## Links read only what is kept -/

section Keeps

open Store

variable {s s' : Store} {root mc : SymbolId}

theorem Completer.Linked.mono (hk : s.Keeps s') {c : Completer} (h : c.Linked s mc) :
    c.Linked s' mc := by
  induction c with
  | emptyInterface _ => exact hk.hasType h
  | box _ => exact ⟨hk.hasType h.1, hk.hasType h.2.1, h.2.2⟩
  | orElse _ _ ih ih' => exact ⟨ih h.1, ih' h.2⟩
  | install _ _ ih ih' => exact ⟨ih h.1, ih' h.2⟩
  | modify _ _ ih => exact ih h
  | openMembers _ ih => exact ih h
  | request _ _ ih => exact ih h
  | complete _ _ ih => exact ih h
  | rethrow _ ih => exact ih h
  | _ => trivial

theorem Scope.Linked.mono (hk : s.Keeps s') {id : SymbolId} {sc : Scope} (h : sc.Linked s id) :
    sc.Linked s' id where
  owner := h.owner
  entries n xs hm x hx := by
    obtain ⟨hs, hn⟩ := h.entries n xs hm x hx
    exact ⟨hk.hasSymbol hs, (hk.nameOf hs).trans hn⟩

theorem Scope.linked_members (s : Store) (id : SymbolId) : (Scope.members id).Linked s id :=
  ⟨rfl, fun _ _ h => by simp [Scope.members, Scope.toList, OrderedMap.empty] at h⟩

theorem Scope.linked_erroneous (s : Store) (id : SymbolId) : (Scope.erroneous id).Linked s id :=
  ⟨rfl, fun _ _ h => by simp [Scope.erroneous, Scope.toList, OrderedMap.empty] at h⟩

theorem Scope.Linked.enter {id x : SymbolId} {n : Name} {sc : Scope} (h : sc.Linked s id)
    (hx : s.HasSymbol x) (hn : s.nameOf x = n) : (sc.enter n x).Linked s id where
  owner := h.owner
  entries m xs hm y hy := by
    rcases Scope.mem_toList_enter hm hy with ⟨rfl, rfl⟩ | ⟨ys, hm', hy'⟩
    · exact ⟨hx, hn⟩
    · exact h.entries m ys hm' y hy'

theorem Symbol.Linked.mono (hk : s.Keeps s') {id : SymbolId} {sym : Symbol}
    (h : sym.Linked s root mc id) : sym.Linked s' root mc id where
  rooted := h.rooted
  owner := h.owner
  types ty hty := hk.hasType (h.types ty hty)
  declared hkind := hk.declaring (h.declared hkind)
  scope sc hsc := (h.scope sc hsc).mono hk
  completer info c hb hc := (h.completer info c hb hc).mono hk

theorem Ty.Linked.mono (hk : s.Keeps s') {ty : TypeId} {t : Ty} (h : t.Linked s mc ty) :
    t.Linked s' mc ty where
  types x hx := hk.hasType (h.types x hx)
  declared hne := by
    obtain ⟨d, hd, hs, hm, ht⟩ := h.declared hne
    exact ⟨d, hd, hk.hasSymbol hs, hm, fun htag => (hk.typeOf hs).trans (ht htag)⟩

/-- A symbol that changed only in what outlines leave out is linked if that is. -/
theorem Symbol.Linked.of_outline {id : SymbolId} {sym sym' : Symbol} (h : sym.Linked s root mc id)
    (ho : sym'.outline = sym.outline) (htypes : ∀ ty ∈ sym'.body.types, s.HasType ty)
    (hscope : ∀ sc, sym'.members? = some sc → sc.Linked s id)
    (hcompleter : ∀ info c, sym'.body = .cls info → info.completer = some c → c.Linked s mc) :
    sym'.Linked s root mc id where
  rooted := by rw [Symbol.owner_of_outline ho]; exact h.rooted
  owner := by rw [Symbol.owner_of_outline ho]; exact h.owner
  types ty hty := by
    rcases List.mem_cons.1 hty with rfl | hty
    · rw [Symbol.ty_of_outline ho]
      exact h.types _ (List.mem_cons_self ..)
    · exact htypes ty hty
  declared hkind := by
    rw [Symbol.kind_of_outline ho] at hkind
    rw [Symbol.ty_of_outline ho]
    exact h.declared hkind
  scope := hscope
  completer := hcompleter

/-- A store that keeps another is linked if what is new or changed in it is. -/
theorem Store.Linked.of_keeps (h : s.Linked root mc) (hk : s.Keeps s')
    (hsym : ∀ id sym, s'.symbol? id = some sym →
      s.symbol? id = some sym ∨ sym.Linked s' root mc id)
    (hty : ∀ ty t, s'.type? ty = some t → s.type? ty = some t ∨ t.Linked s' mc ty) :
    s'.Linked root mc where
  hasRoot := hk.hasSymbol h.hasRoot
  symbols id sym hs := (hsym id sym hs).elim (fun hs => (h.symbols id sym hs).mono hk) fun hl => hl
  types ty t ht := (hty ty t ht).elim (fun ht => (h.types ty t ht).mono hk) fun hl => hl

/-! ## Adding -/

variable {t : Ty} {sym : Symbol}

theorem hasSymbol_next_extend (s : Store) (t : Ty) (sym : Symbol) :
    (s.extend t sym).HasSymbol s.nextSymbol :=
  hasSymbol_of_symbol? (by rw [symbol?_extend, if_pos rfl])

theorem declaring?_next_extend (s : Store) (t : Ty) (sym : Symbol) :
    (s.extend t sym).declaring? s.nextType = t.symbol := by
  simp [declaring?, type?_extend]

/-- A new symbol is linked if its owner is there and it declares the new type, where it declares
one. -/
theorem Symbol.Linked.fresh (hroot : s.HasSymbol root) {owner : SymbolId}
    (howner : sym.owner = some owner) (hs : s.HasSymbol owner) (hty : sym.ty = s.nextType)
    (htypes : sym.body.types = [])
    (hdecl : sym.kind = .cls ∨ sym.kind = .error ∨ sym.kind = .package → t.symbol = some s.nextSymbol)
    (hscope : ∀ sc, sym.members? = some sc → sc.Linked s s.nextSymbol)
    (hcompleter : ∀ info c, sym.body = .cls info → info.completer = some c → c.Linked s mc) :
    sym.Linked (s.extend t sym) root mc s.nextSymbol where
  rooted := by
    have hne : s.nextSymbol ≠ root := hroot.ne_next.symm
    simp [howner, hne]
  owner o ho := by
    obtain rfl : owner = o := by simpa [howner] using ho
    exact hs
  types ty hm := by
    obtain rfl : ty = s.nextType := by simpa [Symbol.types, htypes, hty] using hm
    exact hasType_of_type? (by rw [type?_extend, if_pos rfl])
  declared hkind := by rw [hty, declaring?_next_extend, hdecl hkind]
  scope sc hsc := (hscope sc hsc).mono (s.keeps_extend t sym)
  completer info c hb hc := (hcompleter info c hb hc).mono (s.keeps_extend t sym)

/-- A new type is linked if its symbol is the new one, or the method pseudo-class. -/
theorem Ty.Linked.fresh (htypes : ∀ x ∈ t.form.types, s.HasType x)
    (hdecl : (t.tag = .method ∧ t.symbol = some mc ∧ s.HasSymbol mc) ∨
      (t.tag ≠ .method ∧ t.symbol = some s.nextSymbol ∧ sym.ty = s.nextType)) :
    t.Linked (s.extend t sym) mc s.nextType where
  types x hx := (s.keeps_extend t sym).hasType (htypes x hx)
  declared _ := by
    rcases hdecl with ⟨htag, hd, hmc⟩ | ⟨htag, hd, hty⟩
    · exact ⟨mc, hd, (s.keeps_extend t sym).hasSymbol hmc, fun _ => rfl, fun h => absurd htag h⟩
    · refine ⟨s.nextSymbol, hd, hasSymbol_next_extend s t sym, fun h => absurd h htag, fun _ => ?_⟩
      have hs : (s.extend t sym).symbol? s.nextSymbol = some sym := by rw [symbol?_extend, if_pos rfl]
      rw [typeOf_of_symbol? hs, hty]

theorem Store.Linked.extend (h : s.Linked root mc)
    (hsym : sym.Linked (s.extend t sym) root mc s.nextSymbol)
    (hty : t.Linked (s.extend t sym) mc s.nextType) : (s.extend t sym).Linked root mc := by
  refine h.of_keeps (s.keeps_extend t sym) (fun id sym' hs => ?_) fun ty t' ht => ?_
  · rw [symbol?_extend] at hs
    split at hs
    · next hid => subst hid; obtain rfl := Option.some.inj hs; exact .inr hsym
    · exact .inl hs
  · rw [type?_extend] at ht
    split at ht
    · next hid => subst hid; obtain rfl := Option.some.inj ht; exact .inr hty
    · exact .inl ht

theorem Store.Linked.addMethodLike (h : s.Linked root mc) {owner : SymbolId} (ho : s.HasSymbol owner)
    (hmc : s.HasSymbol mc) {g : Signature} (hg : ∀ ty ∈ g.types, s.HasType ty)
    (modifiers : Modifiers) (name : Name) {body : SymbolBody}
    (hbody : body = .method ∨ ∃ code, body = .operator code) :
    (s.extend ⟨.method g, some mc⟩
      { modifiers, name, owner := some owner, ty := s.nextType, sentinel := none, body }).Linked
        root mc := by
  refine h.extend (.fresh h.hasRoot rfl ho rfl ?_ (fun hkind => ?_) (fun sc hsc => ?_)
    fun info c hb hc => ?_) (.fresh hg (.inl ⟨rfl, rfl, hmc⟩))
  · rcases hbody with rfl | ⟨_, rfl⟩ <;> rfl
  · rcases hbody with rfl | ⟨_, rfl⟩ <;> simp [Symbol.kind, SymbolBody.kind] at hkind
  · rcases hbody with rfl | ⟨_, rfl⟩ <;> simp [Symbol.members?] at hsc
  · rcases hbody with rfl | ⟨_, rfl⟩ <;> simp at hb

/-- A variable of a type that is there. -/
theorem Store.Linked.addVariable (h : s.Linked root mc) {owner : SymbolId} (ho : s.HasSymbol owner)
    {ty : TypeId} (hty : s.HasType ty) (modifiers : Modifiers) (name : Name) :
    (s.addVariable modifiers name ty owner).2.Linked root mc := by
  refine h.of_keeps (s.keeps_addSymbol _) (fun id sym' hs => ?_) fun ty t ht => .inl ht
  rw [Store.addVariable, symbol?_addSymbol] at hs
  split at hs
  · next hid =>
    subst hid
    obtain rfl := Option.some.inj hs
    refine .inr ⟨?_, fun o ho' => ?_, fun x hx => ?_, fun hkind => ?_, fun sc hsc => ?_,
      fun info c hb hc => ?_⟩
    · have hne : s.nextSymbol ≠ root := h.hasRoot.ne_next.symm
      simp [hne]
    · obtain rfl := Option.some.inj ho'
      exact ho
    · obtain rfl : x = ty := by simpa [Symbol.types, SymbolBody.types] using hx
      exact hty
    · simp [Symbol.kind, SymbolBody.kind] at hkind
    · simp [Symbol.members?] at hsc
    · simp at hb
  · exact .inl hs

/-! ## Changing -/

theorem Store.Linked.insertClass (h : s.Linked root mc) {flat : Name} (hnew : s.class? flat = none)
    (id : SymbolId) : (s.insertClass flat id).Linked root mc :=
  h.of_keeps (keeps_insertClass id hnew) (fun _ _ hs => .inl hs) fun _ _ ht => .inl ht

theorem Store.Linked.insertPackage (h : s.Linked root mc) {full : Name}
    (hnew : s.package? full = none) (id : SymbolId) : (s.insertPackage full id).Linked root mc :=
  h.of_keeps (keeps_insertPackage id hnew) (fun _ _ hs => .inl hs) fun _ _ ht => .inl ht

theorem Store.Linked.update (h : s.Linked root mc) {id : SymbolId} {f : Symbol → Symbol}
    (ho : ∀ sym, s.symbol? id = some sym → (f sym).outline = sym.outline)
    (hf : ∀ sym, s.symbol? id = some sym → (f sym).Linked s root mc id) :
    (s.update id f).Linked root mc := by
  have hk := keeps_update s id ho
  refine h.of_keeps hk (fun x sym hs => ?_) fun ty t ht => .inl ht
  rw [symbol?_update] at hs
  split at hs
  · next hx =>
    subst hx
    obtain ⟨sym₀, hs₀, rfl⟩ := Option.map_eq_some_iff.1 hs
    exact .inr ((hf sym₀ hs₀).mono hk)
  · exact .inl hs

/-- The scope of a symbol after a symbol was entered under its own name. -/
theorem Symbol.Linked.mapMembers {id x : SymbolId} {n : Name} (h : sym.Linked s root mc id)
    (hx : s.HasSymbol x) (hn : s.nameOf x = n) :
    (sym.mapMembers fun scope => scope.enter n x).Linked s root mc id := by
  refine h.of_outline (Symbol.outline_mapMembers _ _) (fun ty hty => ?_) (fun sc hsc => ?_)
    fun info c hb hc => ?_
  · cases hbody : sym.body with
    | cls info => exact h.types ty (by simp_all [Symbol.mapMembers, Symbol.types, SymbolBody.types,
        ClassInfo.types])
    | _ => simp [Symbol.mapMembers, hbody, SymbolBody.types] at hty
  · cases hbody : sym.body with
    | cls info =>
      simp only [Symbol.mapMembers, hbody, Symbol.members?, Option.map_eq_some_iff] at hsc
      obtain ⟨sc', hsc', rfl⟩ := hsc
      exact (h.scope sc' (by simp [Symbol.members?, hbody, hsc'])).enter hx hn
    | package info =>
      simp only [Symbol.mapMembers, hbody, Symbol.members?, Option.some.injEq] at hsc
      obtain rfl := hsc
      exact (h.scope info.members (by simp [Symbol.members?, hbody])).enter hx hn
    | _ => simp [Symbol.mapMembers, hbody, Symbol.members?] at hsc
  · cases hbody : sym.body with
    | cls info' =>
      simp only [Symbol.mapMembers, hbody, SymbolBody.cls.injEq] at hb
      obtain rfl := hb
      exact h.completer info' c hbody hc
    | _ => simp [Symbol.mapMembers, hbody] at hb

theorem Symbol.Linked.classInfo {id : SymbolId} {info : ClassInfo} (h : sym.Linked s root mc id)
    (hb : sym.body = .cls info) : info.Linked s mc id := by
  have htypes : ∀ ty ∈ info.types, s.HasType ty := fun ty hty =>
    h.types ty (by simp [Symbol.types, SymbolBody.types, hb, hty])
  exact {
    supertype ty hty := htypes ty (by simp [ClassInfo.types, hty])
    interfaces ty hty := htypes ty (by simp [ClassInfo.types, hty])
    typeParams ty hty := htypes ty (by simp [ClassInfo.types, hty])
    members sc hsc := h.scope sc (by simp [Symbol.members?, hb, hsc])
    completer c hc := h.completer info c hb hc }

/-- A class after a change of its data. -/
theorem Symbol.Linked.mapClass {id : SymbolId} {f : ClassInfo → ClassInfo}
    (h : sym.Linked s root mc id)
    (hnames : ∀ info, (f info).fullName = info.fullName ∧ (f info).flatName = info.flatName ∧
      (f info).erroneous = info.erroneous)
    (hf : ∀ info, info.Linked s mc id → (f info).Linked s mc id) :
    (sym.mapClass f).Linked s root mc id := by
  cases hbody : sym.body with
  | cls info =>
    have hinfo := hf info (h.classInfo hbody)
    refine h.of_outline (Symbol.outline_mapClass hnames _) (fun ty hty => ?_) (fun sc hsc => ?_)
      fun info' c hb hc => ?_
    · simp only [Symbol.mapClass, hbody, SymbolBody.types, ClassInfo.types, List.mem_append,
        Option.mem_toList, or_assoc] at hty
      rcases hty with hty | hty | hty
      · exact hinfo.supertype ty hty
      · exact hinfo.interfaces ty hty
      · exact hinfo.typeParams ty hty
    · exact hinfo.members sc (by simpa [Symbol.mapClass, hbody, Symbol.members?] using hsc)
    · simp only [Symbol.mapClass, hbody, SymbolBody.cls.injEq] at hb
      exact hinfo.completer c (hb ▸ hc)
  | _ => simpa [Symbol.mapClass, hbody] using h

theorem Store.Linked.mapClass (h : s.Linked root mc) {id : SymbolId} {f : ClassInfo → ClassInfo}
    (hnames : ∀ info, (f info).fullName = info.fullName ∧ (f info).flatName = info.flatName ∧
      (f info).erroneous = info.erroneous)
    (hf : ∀ info, info.Linked s mc id → (f info).Linked s mc id) :
    (s.update id (Symbol.mapClass f)).Linked root mc :=
  h.update (fun _ _ => Symbol.outline_mapClass hnames _) fun sym hs =>
    (h.symbols id sym hs).mapClass hnames hf

theorem Symbol.Linked.setModifiers {id : SymbolId} (h : sym.Linked s root mc id) (m : Modifiers) :
    Symbol.Linked s root mc id { sym with modifiers := m } :=
  ⟨h.rooted, h.owner, h.types, h.declared, h.scope, h.completer⟩

/-! ## Entering names -/

theorem Store.Linked.withClass (h : s.Linked root mc) {flat : Name} (simple : Name)
    {owner : SymbolId} (hnew : s.class? flat = none) (ho : s.HasSymbol owner) :
    (s.withClass simple flat owner).Linked root mc := by
  refine .insertClass (h.extend (.fresh h.hasRoot rfl ho rfl rfl (fun _ => rfl) (fun sc hsc => ?_)
    fun info c hb hc => ?_) (.fresh (by simp [TyForm.types])
      (.inr ⟨by simp [Ty.tag, TyForm.tag], rfl, rfl⟩))) hnew _
  · simp [Symbol.entered, Symbol.members?, ClassInfo.named] at hsc
  · obtain rfl := SymbolBody.cls.inj hb
    obtain rfl := Option.some.inj hc
    trivial

theorem Store.Linked.enters (h : s.Linked root mc) (hr : s.Registered) (he : s.Enters s') :
    s'.Linked root mc := by
  cases he with
  | @package full owner fresh _ parent =>
    refine .insertPackage (h.extend (.fresh h.hasRoot rfl (hr.hasSymbol_package parent) rfl rfl
      (fun _ => rfl) (fun sc hsc => ?_) fun info c hb hc => ?_) (.fresh (by simp [TyForm.types])
        (.inr ⟨by simp [Ty.tag, TyForm.tag], rfl, rfl⟩))) fresh _
    · exact Option.some.inj hsc ▸ Scope.linked_members s _
    · simp at hb
  | @top flat owner fresh _ parent =>
    have hw := h.withClass (flat.lastPart '.') fresh (hr.hasSymbol_package parent)
    have hnext : (s.withClass (flat.lastPart '.') flat owner).symbol? s.nextSymbol =
        some (.entered (flat.lastPart '.') flat s.nextType owner) := by
      rw [symbol?_withClass, if_pos rfl]
    exact hw.update (fun _ _ => Symbol.outline_mapMembers _ _) fun sym hs =>
      (hw.symbols owner sym hs).mapMembers (hasSymbol_of_symbol? hnext) (nameOf_of_symbol? hnext)
  | nested fresh _ parent => exact h.withClass _ fresh (hr.hasSymbol parent)

/-- Resolution keeps a store linked. -/
theorem Store.Linked.entering (h : s.Linked root mc) (hr : s.Registered) (he : s.Entering s') :
    s'.Linked root mc := by
  induction he with
  | refl => exact h
  | tail hpath hstep ih => exact ih.enters (hr.entering hpath) hstep

/-! ## Completing classes -/

theorem Scope.Linked.getD {id : SymbolId} {members : Option Scope} {scope : Scope}
    (h : ∀ sc, members = some sc → sc.Linked s id) (hscope : scope.Linked s id) :
    (members.getD scope).Linked s id := by
  cases members with
  | none => exact hscope
  | some sc => exact h sc rfl

theorem Store.Linked.setCompleter (h : s.Linked root mc) (id : SymbolId) {c : Completer}
    (hc : c.Linked s mc) : (s.setCompleter id c).Linked root mc :=
  h.mapClass (by simp) fun _ hinfo => { hinfo with completer := fun _ he => Option.some.inj he ▸ hc }

theorem Store.Linked.dropCompleter (h : s.Linked root mc) (id : SymbolId) :
    (s.dropCompleter id).Linked root mc :=
  h.mapClass (by simp) fun _ hinfo => { hinfo with completer := by simp }

theorem Store.Linked.recordFailure (h : s.Linked root mc) (id : SymbolId) (kind : FailureKind) :
    (s.recordFailure id kind).Linked root mc :=
  h.mapClass (by simp) fun _ hinfo =>
    { hinfo with members := fun _ he =>
        Option.some.inj he ▸ .getD hinfo.members (Scope.linked_erroneous s id) }

theorem Store.Linked.addModifiers (h : s.Linked root mc) (id : SymbolId) (m : Modifiers) :
    (s.addModifiers id m).Linked root mc :=
  h.update (fun _ _ => rfl) fun sym hs => (h.symbols id sym hs).setModifiers _

theorem Store.Linked.filled (h : s.Linked root mc) (id : SymbolId) (m : Modifiers)
    {supertype : Option TypeId} {interfaces : List TypeId}
    (habove : ∀ ty, supertype = some ty → s.HasType ty) (hbeside : ∀ ty ∈ interfaces, s.HasType ty) :
    (s.filled id m supertype interfaces).Linked root mc :=
  (h.addModifiers id m).mapClass (by simp) fun _ hinfo =>
    { hinfo with
      supertype := habove
      interfaces := hbeside
      typeParams := hinfo.typeParams
      members := fun _ he => Option.some.inj he ▸ .getD hinfo.members (Scope.linked_members _ id) }

theorem Store.Linked.below (h : s.Linked root mc) (id : SymbolId) {object : TypeId}
    (ho : s.HasType object) : (s.below id object).Linked root mc :=
  h.mapClass (by simp) fun _ hinfo =>
    { hinfo with
      supertype := fun _ he => Option.some.inj he ▸ ho
      interfaces := hinfo.interfaces
      members := fun _ he => Option.some.inj he ▸ .getD hinfo.members (Scope.linked_members _ id) }

/-- A method that is a member of its owner. -/
theorem Store.Linked.withMethod (h : s.Linked root mc) {owner : SymbolId} (ho : s.HasSymbol owner)
    (hmc : s.HasSymbol mc) {g : Signature} (hg : ∀ ty ∈ g.types, s.HasType ty)
    (modifiers : Modifiers) (name : Name) :
    (s.withMethod modifiers name g owner mc).Linked root mc := by
  have hadd := h.addMethodLike ho hmc hg modifiers name (.inl rfl)
  have hnext := s.symbol?_extend ⟨.method g, some mc⟩
    { modifiers, name, owner := some owner, ty := s.nextType, sentinel := none, body := .method }
    s.nextSymbol
  rw [if_pos rfl] at hnext
  exact hadd.update (fun _ _ => Symbol.outline_mapMembers _ _) fun sym hs =>
    (hadd.symbols owner sym hs).mapMembers (hasSymbol_of_symbol? hnext) (nameOf_of_symbol? hnext)

theorem Store.Linked.withBoxing (h : s.Linked root mc) {id : SymbolId} (hid : s.HasSymbol id)
    (hmc : s.HasSymbol mc) {plan : BoxPlan} (hprim : s.HasType plan.primitive)
    (hplan : plan.methodClass = mc) : (s.withBoxing id plan).Linked root mc := by
  subst hplan
  obtain ⟨sym, hs⟩ := hid.symbol?
  have hty := typeOf_of_symbol? hs ▸ (h.symbols id sym hs).types _ (List.mem_cons_self ..)
  have hk := s.keeps_withMethod (.ofFlags [.isPublic, .isStatic]) plan.factory
    (.of [plan.primitive] (s.typeOf id)) id plan.methodClass
  have hboxing := h.withMethod (g := .of [plan.primitive] (s.typeOf id)) hid hmc
    (by simpa [Signature.types, Signature.of] using ⟨hprim, hty⟩)
    (.ofFlags [.isPublic, .isStatic]) plan.factory
  exact hboxing.withMethod (hk.hasSymbol hid) (hk.hasSymbol hmc)
    (by simpa [Signature.types, Signature.of] using hk.hasType hprim) _ _

theorem Store.Linked.standIn (h : s.Linked root mc) {id : SymbolId} (hid : s.HasSymbol id)
    (hmc : s.HasSymbol mc) {f : Completer} (hf : f.Linked s mc) :
    (s.standIn id f).Linked root mc := by
  cases f with
  | emptyInterface object =>
    exact (h.addModifiers id _).below id ((s.keeps_addModifiers id _).hasType hf)
  | box plan =>
    obtain ⟨hprim, hobj, hplan⟩ := hf
    have hk := (s.keeps_addModifiers id (.single .isPublic)).trans (keeps_below _ id plan.object)
    have hbelow := (h.addModifiers id (.single .isPublic)).below id
      ((s.keeps_addModifiers id _).hasType hobj)
    exact hbelow.withBoxing (hk.hasSymbol hid) (hk.hasSymbol hmc) (hk.hasType hprim) hplan
  | _ => exact h

theorem Completer.Linked.standin {c f : Completer} (h : c.Linked s mc) (hf : c.standin? = some f) :
    f.Linked s mc := by
  induction c generalizing f with
  | orElse base fallback ih _ =>
    obtain rfl : base.standin?.getD fallback = f := by simpa [Completer.standin?] using hf
    cases hb : base.standin? with
    | none => exact h.2
    | some g => exact ih h.1 hb
  | _ => simp [Completer.standin?] at hf

theorem Store.Linked.hasType_typeOf (h : s.Linked root mc) {id : SymbolId} (hid : s.HasSymbol id) :
    s.HasType (s.typeOf id) := by
  obtain ⟨sym, hs⟩ := hid.symbol?
  rw [typeOf_of_symbol? hs]
  exact (h.symbols id sym hs).types _ (List.mem_cons_self ..)

/-- The type of a registered class is one of the store's. -/
theorem Store.Linked.hasType (h : s.Linked root mc) {flat : Name} {ty : TypeId}
    (hc : s.ClassType flat ty) : s.HasType ty := by
  obtain ⟨id, -, hid, rfl⟩ := hc
  exact h.hasType_typeOf hid

theorem Store.Linked.hasType_of_forall₂ (h : s.Linked root mc) {names : List Name}
    {tys : List TypeId} (hall : List.Forall₂ s.ClassType names tys) : ∀ ty ∈ tys, s.HasType ty := by
  induction hall with
  | nil => simp
  | cons hc _ ih => exact List.forall_mem_cons.2 ⟨h.hasType hc, ih⟩

/-- Completing a class keeps a store linked. -/
theorem Store.Linked.completes {path : ClassPath} {flat : Name} {id : SymbolId} {c : Completer}
    {o : Completed} (h : s.Linked root mc) (hreg : s.Registered) (hid : s.HasSymbol id)
    (hmc : s.HasSymbol mc) (hc : c.Linked s mc) (hd : s.Completes path flat id c o s') :
    s'.Linked root mc := by
  cases hd with
  | read _ _ asked above beside =>
    have h' := h.entering hreg asked.entering
    refine h'.filled id _ (fun ty hty => ?_) (h'.hasType_of_forall₂ beside)
    exact h'.hasType_of_forall₂ above ty (by simp [hty])
  | stoodFor _ standin => exact h.standIn hid hmc (hc.standin standin)
  | corrupt _ _ => exact h.recordFailure id _
  | missing _ _ => exact h.recordFailure id _

end Keeps

end SymbolTable
