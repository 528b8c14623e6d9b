/-
Which types a stand-in interface is put behind.

The class of a type is the symbol that declares it, if that is a class.
Class types are declared by their class, but so is every other type save the
absent one and those of packages: a primitive type by its class, a method
type by the method pseudo-class, the error and the unknown type by their
symbols. So what is refused is the absent type, by its own name, and a
package type, by the name of the package. The rest is accepted, to no effect
unless it is a class type, as nothing is ever pending on the built-ins.
-/
import SymbolTable.Proofs.Builtins
import SymbolTable.Proofs.Rendering

namespace SymbolTable

open Build Store

/-- How the types of a store are declared: by packages, by classes, or not at all. -/
inductive Ty.Declared (s : Store) : Ty → Prop
  | absent : Declared s .absent
  | package {t : Ty} {d : SymbolId} {sym : Symbol} {info : PackageInfo} (tag : t.tag = .package)
      (symbol : t.symbol = some d) (declaring : s.symbol? d = some sym)
      (body : sym.body = .package info) : Declared s t
  | cls {t : Ty} {d : SymbolId} (other : t.tag ≠ .package) (typed : t.tag ≠ .absent)
      (symbol : t.symbol = some d) (declaring : (s.classInfo? d).isSome) : Declared s t

theorem Ty.Declared.mono {s s' : Store} (hk : s.Keeps s') {t : Ty} (h : t.Declared s) :
    t.Declared s' := by
  cases h with
  | absent => exact .absent
  | package tag symbol declaring body =>
    obtain ⟨sym', hs', ho⟩ := hk.symbol? declaring
    obtain ⟨info', hb', -⟩ := Symbol.packageInfo_of_outline ho body
    exact .package tag symbol hs' hb'
  | cls other typed symbol declaring =>
    exact .cls other typed symbol (hk.isSome_classInfo? declaring)

/-- What is registered makes no difference. -/
theorem Ty.Declared.of_symbols {s s' : Store} (hs : s'.symbols = s.symbols) {t : Ty}
    (h : t.Declared s) : t.Declared s' := by
  have hsymbol : s'.symbol? = s.symbol? := by
    funext id
    rw [symbol?, hs, symbol?]
  cases h with
  | absent => exact .absent
  | package tag symbol declaring body => exact .package tag symbol (hsymbol ▸ declaring) body
  | cls other typed symbol declaring =>
    exact .cls other typed symbol (by rw [classInfo?, hsymbol]; exact declaring)

theorem Ty.Declared.hasSymbol {s : Store} {t : Ty} {d : SymbolId} (h : t.Declared s)
    (hd : t.symbol = some d) : s.HasSymbol d := by
  cases h with
  | absent => cases hd
  | package _ symbol declaring _ =>
    obtain rfl := Option.some.inj (symbol.symm.trans hd)
    exact hasSymbol_of_symbol? declaring
  | cls _ _ symbol declaring =>
    obtain rfl := Option.some.inj (symbol.symm.trans hd)
    exact hasSymbol_of_isSome_classInfo? declaring

/-- A package is no class. -/
theorem Ty.Declared.classInfo?_eq_none {s : Store} {t : Ty} {d : SymbolId} (h : t.Declared s)
    (htag : t.tag = .package) (hd : t.symbol = some d) : s.classInfo? d = none := by
  cases h with
  | absent => cases hd
  | package _ symbol declaring body =>
    obtain rfl := Option.some.inj (symbol.symm.trans hd)
    simp [classInfo?, declaring, Symbol.classInfo?, body]
  | cls other _ _ _ => exact absurd htag other

namespace Store

variable {s s' : Store} {l : List Change} {ty : TypeId} {t : Ty} {sym : Symbol}

/-! ## The types that growth adds -/

theorem classInfo?_extend_self {info : ClassInfo} (hb : sym.body = .cls info) (t : Ty) :
    (s.extend t sym).classInfo? s.nextSymbol = some info :=
  classInfo?_eq_some.2 ⟨sym, by rw [symbol?_extend, if_pos rfl], hb⟩

/-- A class declares the type that is added with it. -/
theorem declared_extend {info : ClassInfo} (hb : sym.body = .cls info)
    (hd : t.symbol = some s.nextSymbol) (hother : t.tag ≠ .package) (htyped : t.tag ≠ .absent) :
    t.Declared (s.extend t sym) :=
  .cls hother htyped hd (by rw [classInfo?_extend_self hb]; rfl)

theorem type_cases_addType {t' : Ty} (ht : (s.addType t).2.type? ty = some t') :
    s.type? ty = some t' ∨ t' = t := by
  rw [type?_addType] at ht
  split at ht
  · exact .inr (Option.some.inj ht).symm
  · exact .inl ht

/-- A type that comes with a name: that of a package or of a class. -/
def Named (s : Store) (t : Ty) : Prop := t.Declared s ∧ (t.tag = .cls ∨ t.tag = .package)

theorem Named.mono (hk : s.Keeps s') (h : s.Named t) : s'.Named t := ⟨h.1.mono hk, h.2⟩

theorem Enters.type_cases (he : Enters s s') (ht : s'.type? ty = some t) :
    s.type? ty = some t ∨ s'.Named t := by
  have hclass : ∀ {simple flat : Name} {owner : SymbolId},
      (s.withClass simple flat owner).type? ty = some t →
        s.type? ty = some t ∨ (s.withClass simple flat owner).Named t := by
    intro simple flat owner ht
    rcases type_cases_addType ht with ht | rfl
    · exact .inl ht
    · have hadded : Ty.Declared (s.extend ⟨.cls, some s.nextSymbol⟩
          (.entered simple flat s.nextType owner)) ⟨.cls, some s.nextSymbol⟩ :=
        declared_extend rfl rfl (by simp [Ty.tag, TyForm.tag]) (by simp [Ty.tag, TyForm.tag])
      have hs : (s.withClass simple flat owner).symbols = (s.extend ⟨.cls, some s.nextSymbol⟩
          (.entered simple flat s.nextType owner)).symbols := rfl
      exact .inr ⟨hadded.of_symbols hs, .inl rfl⟩
  cases he with
  | package _ _ _ =>
    rcases type_cases_addType ht with ht | rfl
    · exact .inl ht
    · exact .inr ⟨.package rfl rfl (symbol?_addSymbol_self ..) rfl, .inr rfl⟩
  | top _ _ _ => exact (hclass ht).imp_right (·.mono (keeps_mapMembers ..))
  | nested _ _ _ => exact hclass ht

theorem Entering.type_cases (he : Entering s s') (ht : s'.type? ty = some t) :
    s.type? ty = some t ∨ s'.Named t := by
  induction he with
  | refl => exact .inl ht
  | tail _ hstep ih =>
    rcases hstep.type_cases ht with ht | hnamed
    · exact (ih ht).imp_right (·.mono hstep.keeps)
    · exact .inr hnamed

/-- What grows is types of packages, of classes and of methods. -/
theorem Grows.type_cases (hg : s.Grows l s') (ht : s'.type? ty = some t) :
    s.type? ty = some t ∨ s'.Named t ∨ t.tag = .method := by
  induction hg with
  | refl => exact .inl ht
  | ask _ asked ih =>
    rcases asked.entering.type_cases ht with ht | hnamed
    · exact (ih ht).imp_right (·.imp_left (·.mono asked.entering.keeps))
    · exact .inr (.inl hnamed)
  | rework _ kept ih =>
    exact (ih ht).imp_right (·.imp_left (·.mono (keeps_update _ _ fun sym hs => (kept sym hs).2)))
  | method _ _ _ ih =>
    rcases type_cases_addType ht with ht | rfl
    · exact (ih ht).imp_right (·.imp_left (·.mono (keeps_extend ..)))
    · exact .inr (.inr rfl)
  | field _ _ ih => exact (ih ht).imp_right (·.imp_left (·.mono (keeps_addSymbol ..)))

/-! ## The ground -/

/-- Every type of the store is declared, the absent one apart. -/
def AllDeclared (s : Store) : Prop := ∀ ty t, s.type? ty = some t → t.Declared s

theorem AllDeclared.extend (h : s.AllDeclared) {info : ClassInfo} (hb : sym.body = .cls info)
    (hd : t.symbol = some s.nextSymbol) (hother : t.tag ≠ .package) (htyped : t.tag ≠ .absent) :
    (s.extend t sym).AllDeclared := by
  intro ty t' ht
  rcases type_cases_addType ht with ht | rfl
  · exact (h ty t' ht).mono (keeps_extend ..)
  · exact declared_extend hb hd hother htyped

theorem allDeclared_sentinelStore (display : String) :
    (sentinelStore display (some ⟨4⟩)).AllDeclared := by
  intro ty t ht
  obtain ⟨i⟩ := ty
  rcases i with _ | _ | _ | _ | _ | i <;> simp [type?, sentinelStore] at ht <;> subst ht
  · exact .absent
  · exact .cls (by decide) (by decide) rfl rfl
  · exact .package rfl rfl rfl rfl
  · exact .package rfl rfl rfl rfl
  · exact .cls (by decide) (by decide) rfl rfl

theorem AllDeclared.withPrimitives (h : s.AllDeclared) {rows : List (Tag × Name × Option String)}
    (hrows : ∀ row ∈ rows, row.1 ≠ .package ∧ row.1 ≠ .absent) :
    (withPrimitives ⟨0⟩ rows s).AllDeclared := by
  induction rows generalizing s with
  | nil => exact h
  | cons row rows ih =>
    obtain ⟨hother, htyped⟩ := hrows row List.mem_cons_self
    exact ih (h.extend rfl rfl hother htyped) fun r hr => hrows r (List.mem_cons_of_mem row hr)

theorem allDeclared_pseudoStore (display : String) : (pseudoStore display).AllDeclared := by
  have hprimitives : (primitiveStore display).AllDeclared :=
    (allDeclared_sentinelStore display).withPrimitives (by decide)
  have hpseudo : ∀ {s : Store} (name : Name) (scope : SymbolId → Scope) (owner : SymbolId),
      s.AllDeclared → (s.withPseudo name scope owner).AllDeclared := fun _ _ _ h =>
    h.extend rfl rfl (by simp [Ty.tag, TyForm.tag]) (by simp [Ty.tag, TyForm.tag])
  rw [pseudoStore]
  generalize primitiveStore display = s₀ at hprimitives ⊢
  have hfour := hpseudo WellKnown.empty.text .members ⟨0⟩
    (hpseudo WellKnown.method.text .erroneous ⟨2⟩ (hpseudo WellKnown.bound.text .erroneous ⟨2⟩
      (hpseudo WellKnown.array.text .members ⟨2⟩ hprimitives)))
  intro ty t ht
  refine Ty.Declared.of_symbols ?_ (hfour ty t ht)
  rfl

end Store

/-! ## A session -/

namespace Session

theorem Reachable.standing {st : Session} (h : st.Reachable) : ∃ display, st.Standing display := by
  induction h with
  | @built options messages w w' t hbuild =>
    obtain ⟨t', w'', hbuild', hfurnished⟩ := Table.building_furnished options messages w
    obtain ⟨rfl, rfl⟩ : t' = t ∧ w'' = w' := by simpa using hbuild'.symm.trans hbuild
    obtain ⟨l, hgrown, -⟩ := hfurnished.grown
    exact ⟨_, hfurnished.primitives, hfurnished.grounds, ⟨hfurnished.sound, hfurnished.held⟩,
      ⟨l, hgrown⟩, hfurnished.predefClass ▸ hfurnished.built.predefCompleted⟩
  | step _ op ih =>
    obtain ⟨display, hstanding⟩ := ih
    exact ⟨display, hstanding.run [op]⟩

namespace Standing

variable {display : String} {st : Session} {ty : TypeId} {t : Ty}

/-- The method pseudo-class is a class of the ground. -/
theorem methodClass (h : st.Standing display) :
    ((pseudoStore display).classInfo? st.table.methodClass).isSome :=
  h.builtin _ (by simp [Table.builtins])

/-- Types are declared by packages, by classes, or not at all. Nothing is pending on the class behind
a type that is no class type. -/
theorem declared (h : st.Standing display) (ht : st.store.type? ty = some t) :
    t.Declared st.store ∧
      (t.tag ≠ .cls → ∀ d, t.symbol = some d → st.store.completer? d = none) := by
  obtain ⟨l, hgrown⟩ := h.grown
  rcases hgrown.type_cases ht with hground | ⟨hdeclared, htag⟩ | hmethod
  · have hdeclared := allDeclared_pseudoStore display ty t hground
    exact ⟨hdeclared.mono hgrown.keeps, fun _ d hd => h.completer? (hdeclared.hasSymbol hd)⟩
  · refine ⟨hdeclared, fun hcls d hd => ?_⟩
    rw [Store.completer?, hdeclared.classInfo?_eq_none (htag.resolve_left hcls) hd]
    rfl
  · have hty : ty ≠ .absent := by
      rintro rfl
      have habsent := (layered_pseudoStore display).absent
      rw [hgrown.type? (hasType_of_type? habsent), habsent] at ht
      obtain rfl := Option.some.inj ht
      cases hmethod
    obtain ⟨d, hd, -, hclass, -⟩ := (h.sound.store.linked.types ty t ht).declared hty
    obtain rfl := hclass hmethod
    have hc := h.methodClass
    refine ⟨.cls (by simp [hmethod]) (by simp [hmethod]) hd (hgrown.keeps.isSome_classInfo? hc), ?_⟩
    intro _ d' hd'
    obtain rfl := Option.some.inj (hd.symm.trans hd')
    exact h.completer? (hasSymbol_of_isSome_classInfo? hc)

/-! ## What is answered -/

theorem declaring?_eq (ht : st.store.type? ty = some t) : st.store.declaring? ty = t.symbol := by
  rw [declaring?, ht, Option.bind_some]

/-- A type that is neither absent nor a package's leads to the class behind it. -/
theorem standForInterface_of_class (h : st.Standing display) (ht : st.store.type? ty = some t)
    (htyped : t.tag ≠ .absent) (hother : t.tag ≠ .package) :
    ∃ d, st.store.declaring? ty = some d ∧ (st.store.classInfo? d).isSome ∧
      st.table.standForInterface ty st.store =
        .ok (d, st.store.fallBack d (.emptyInterface st.table.standins.object)) := by
  cases (h.declared ht).1 with
  | absent => exact absurd rfl htyped
  | package tag _ _ _ => exact absurd tag hother
  | @cls _ d _ _ symbol declaring =>
    have hd := (declaring?_eq ht).trans symbol
    obtain ⟨info, hinfo⟩ := Option.isSome_iff_exists.1 declaring
    refine ⟨d, hd, declaring, ?_⟩
    simp only [Table.standForInterface, StandinContext.standForInterface, declaringClass, hd, classInfo,
      hinfo]
    rfl

/-- Nothing is put behind the class of a type that is no class type. -/
theorem standForInterface_of_builtin (h : st.Standing display) (ht : st.store.type? ty = some t)
    (htyped : t.tag ≠ .absent) (hother : t.tag ≠ .package) (hcls : t.tag ≠ .cls) :
    ∃ d, st.store.declaring? ty = some d ∧
      st.table.standForInterface ty st.store = .ok (d, st.store) := by
  obtain ⟨d, hd, -, hanswer⟩ := h.standForInterface_of_class ht htyped hother
  have hdone := (h.declared ht).2 hcls d ((declaring?_eq ht).symm.trans hd)
  refine ⟨d, hd, hanswer.trans ?_⟩
  rw [fallBack, hdone]

theorem standForInterface_of_absent (h : st.Standing display) (ht : st.store.type? ty = some t)
    (htag : t.tag = .absent) :
    st.table.standForInterface ty st.store = .error (.notAClassType ty) := by
  cases (h.declared ht).1 with
  | absent =>
    have hd : st.store.declaring? ty = none := declaring?_eq ht
    simp only [Table.standForInterface, StandinContext.standForInterface, declaringClass, hd]
  | package tag _ _ _ => exact absurd (htag.symm.trans tag) (by simp)
  | cls _ typed _ _ => exact absurd htag typed

theorem standForInterface_of_package (h : st.Standing display) (ht : st.store.type? ty = some t)
    (htag : t.tag = .package) : ∃ d, st.store.declaring? ty = some d ∧
      st.table.standForInterface ty st.store = .error (.notAClass d) := by
  have hdeclared := (h.declared ht).1
  cases id hdeclared with
  | absent => cases htag
  | @package _ d _ _ _ symbol _ _ =>
    have hd := (declaring?_eq ht).trans symbol
    refine ⟨d, hd, ?_⟩
    simp only [Table.standForInterface, StandinContext.standForInterface, declaringClass, hd, classInfo,
      hdeclared.classInfo?_eq_none htag symbol]
    rfl
  | cls other _ _ _ => exact absurd htag other

end Standing

/-- Putting a stand-in interface behind a type, in every state of a session. A class type answers with
its class. The absent type alone is refused as no class type; a package type is refused in the name
of its package. Every other type answers with the class that declares it, though it is no class
type. Unless it is a class type, nothing is changed. -/
theorem Reachable.standForInterface_answers {st : Session} (h : st.Reachable) {ty : TypeId} {t : Ty}
    (ht : st.store.type? ty = some t) :
    (t.tag = .cls → ∃ d, st.store.declaring? ty = some d ∧ (st.store.classInfo? d).isSome ∧
        st.table.standForInterface ty st.store =
          .ok (d, st.store.fallBack d (.emptyInterface st.table.standins.object))) ∧
      (st.table.standForInterface ty st.store = .error (.notAClassType ty) ↔ t.tag = .absent) ∧
      (t.tag = .package → ∃ d, st.store.declaring? ty = some d ∧
        st.table.standForInterface ty st.store = .error (.notAClass d)) ∧
      (t.tag ≠ .cls → t.tag ≠ .absent → t.tag ≠ .package → ∃ d, st.store.declaring? ty = some d ∧
        st.table.standForInterface ty st.store = .ok (d, st.store)) ∧
      (t.tag ≠ .cls → st.step (.standForInterface ty) = st) := by
  obtain ⟨display, hstanding⟩ := h.standing
  refine ⟨fun hcls => ?_, ⟨fun hrefused => ?_, hstanding.standForInterface_of_absent ht⟩,
    hstanding.standForInterface_of_package ht, fun hcls htyped hother =>
      hstanding.standForInterface_of_builtin ht htyped hother hcls, fun hcls => ?_⟩
  · exact hstanding.standForInterface_of_class ht (by simp [hcls]) (by simp [hcls])
  · by_contra htyped
    by_cases htag : t.tag = .package
    · obtain ⟨d, -, hanswer⟩ := hstanding.standForInterface_of_package ht htag
      cases hanswer.symm.trans hrefused
    · obtain ⟨d, -, -, hanswer⟩ := hstanding.standForInterface_of_class ht htyped htag
      cases hanswer.symm.trans hrefused
  · by_cases htyped : t.tag = .absent
    · simp only [Session.step, hstanding.standForInterface_of_absent ht htyped]
    · by_cases htag : t.tag = .package
      · obtain ⟨d, -, hanswer⟩ := hstanding.standForInterface_of_package ht htag
        simp only [Session.step, hanswer]
      · obtain ⟨d, -, hanswer⟩ := hstanding.standForInterface_of_builtin ht htyped htag hcls
        simp only [Session.step, hanswer]
        rfl

/-- The type of a registered class is accepted, and the absent type is refused. -/
theorem standForInterface_answers_built : ∃ (st : Session) (ty : TypeId) (t : Ty) (d : SymbolId),
    st.Reachable ∧ st.store.type? ty = some t ∧ t.tag = .cls ∧
      st.table.standForInterface ty st.store =
        .ok (d, st.store.fallBack d (.emptyInterface st.table.standins.object)) ∧
      st.table.standForInterface .absent st.store = .error (.notAClassType .absent) := by
  obtain ⟨t, w, hbuild, -⟩ := Table.building_furnished .default Messages.english .empty
  have hreach := Reachable.built hbuild
  generalize Session.mk t w = st at hreach
  obtain ⟨display, hstanding⟩ := hreach.standing
  -- the predefined class is registered, so its type is a class type
  obtain ⟨sym, info, -, -, -, hform⟩ := hreach.sound.store.registered.cls hstanding.predefined
  obtain ⟨t, ht, hcls⟩ := Option.map_eq_some_iff.1 hform
  have htag : t.tag = .cls := by rw [Ty.tag, hcls]; rfl
  obtain ⟨d, -, -, hanswer⟩ := (Reachable.standForInterface_answers hreach ht).1 htag
  have habsent : st.store.type? .absent = some .absent := hreach.layered.absent
  exact ⟨st, _, t, d, hreach, ht, htag, hanswer,
    (Reachable.standForInterface_answers hreach habsent).2.1.2 rfl⟩

/-- The primitive type `int` is no class type and is accepted all the same. -/
theorem standForInterface_accepts_int : ∃ (st : Session) (ty : TypeId) (t : Ty) (d : SymbolId),
    st.Reachable ∧ st.store.type? ty = some t ∧ t.tag = .int ∧
      st.table.standForInterface ty st.store = .ok (d, st.store) := by
  obtain ⟨t, w, hbuild, -⟩ := Table.building_furnished .default Messages.english .empty
  have hreach := Reachable.built hbuild
  generalize Session.mk t w = st at hreach
  obtain ⟨display, hstanding⟩ := hreach.standing
  obtain ⟨l, hgrown⟩ := hstanding.grown
  obtain ⟨form, -, hform, htag, -⟩ :=
    (grounded_primitiveIds display).primitives .int ⟨10⟩ rfl
  obtain ⟨t, ht, rfl⟩ := Option.map_eq_some_iff.1 (hgrown.keeps.form hform)
  have hint : t.tag = .int := htag
  obtain ⟨d, -, hanswer⟩ := hstanding.standForInterface_of_builtin ht (by simp [hint]) (by simp [hint])
    (by simp [hint])
  exact ⟨st, ⟨10⟩, t, d, hreach, ht, hint, hanswer⟩

end Session

end SymbolTable
