/-
The text of types.

A type mentions only types that came before it (`Layered`), so the text of a
method type is put together from the texts of its parameters and its result,
however deep they nest. Growth keeps types in layers, and as it changes no
type and no name, it changes no text either.
-/
import SymbolTable.Proofs.Registry
import SymbolTable.Proofs.TypeTrees

namespace SymbolTable

open Build Store

/-- A type mentions only types that came before it, and the first of all is the absent type. -/
structure Store.Layered (s : Store) : Prop where
  earlier : ∀ {ty t}, s.type? ty = some t → ∀ x ∈ t.form.types, x.index < ty.index
  absent : s.type? .absent = some .absent

namespace Store

variable {s s' : Store} {root mc predef : SymbolId} {l : List Change} {ty : TypeId}

theorem Layered.nests (h : s.Layered) : s.Nests := by
  intro ty g hg
  obtain ⟨t, ht, hform⟩ := Option.map_eq_some_iff.1 (signature?_eq_some.1 hg)
  exact fun x hx => h.earlier ht x (by rw [hform]; exact hx)

theorem visitAll_eq_map (visit : TypeId → Unit → String × Unit) (tys : List TypeId) :
    Visitor.visitAll visit tys () = (tys.map fun ty => (visit ty ()).1, ()) := by
  induction tys with
  | nil => rfl
  | cons ty tys ih =>
    have hst : (visit ty ()).2 = () := rfl
    simp only [Visitor.visitAll, List.map_cons, hst, ih]

/-- The text of a signature: its parameters and its result. -/
def signatureText (s : Store) (g : Signature) : String :=
  "(" ++ ",".intercalate (g.params.map s.typeText) ++ ")" ++ s.typeText g.result

/-- A method type is written as its signature. -/
theorem Layered.typeText_method (h : s.Layered) {g : Signature} {d : Option SymbolId}
    (ht : s.type? ty = some ⟨.method g, d⟩) : s.typeText ty = s.signatureText g := by
  have hearlier : ∀ x ∈ g.types, (s.typeWriter.visitWithin s ty.index x ()).1 = s.typeText x :=
    fun x hx => congrArg (fun visit => (visit ()).1)
      (h.nests.visitWithin_eq s.typeWriter (h.earlier ht x hx))
  have hparams : (g.params.map fun x => (s.typeWriter.visitWithin s ty.index x ()).1) =
      g.params.map s.typeText :=
    List.map_congr_left fun x hx => hearlier x (List.mem_append_left _ hx)
  have hresult := hearlier g.result (List.mem_append_right _ (List.mem_cons_self ..))
  rw [typeText, Visitor.visit, Visitor.visitWithin]
  simp only [ht, Ty.tag, TyForm.tag, visitAll_eq_map, hparams, signatureText]
  rw [← hresult]
  rfl

theorem signatureText_congr {g : Signature} (h : ∀ x ∈ g.types, s'.typeText x = s.typeText x) :
    s'.signatureText g = s.signatureText g := by
  rw [signatureText, h g.result (List.mem_append_right _ (List.mem_cons_self ..)),
    List.map_congr_left fun x hx => h x (List.mem_append_left _ hx), signatureText]

/-- The text of a class type is the name of the class in source text. -/
theorem Filed.typeText (h : s.Filed predef) (hs : s.Sound root mc) {flat : Name}
    (hty : s.ClassType flat ty) : s.typeText ty = (Request.cls flat).sourceName := by
  obtain ⟨id, hc, -, rfl⟩ := hty
  obtain ⟨sym, info, hsym, -, -, hform⟩ := h.registered.cls hc
  obtain ⟨sym', hsym', hfiled⟩ := h.entry (r := .cls flat) hc
  obtain rfl := Option.some.inj (hsym.symm.trans hsym')
  have hdeclaring := (hs.declaring? hc).1
  rw [typeOf_of_symbol? hsym] at hdeclaring ⊢
  obtain ⟨t, ht, hcls⟩ := Option.map_eq_some_iff.1 hform
  have hdeclared : s.declaredText sym.ty = sym.qualifiedName := by
    simp only [declaredText, hdeclaring, Option.bind_some, hsym]
  rw [← hfiled.qualified, ← hdeclared, typeText, Visitor.visit, Visitor.visitWithin]
  obtain ⟨form, symbol⟩ := t
  obtain rfl : form = .cls := hcls
  simp only [ht]
  rfl

/-! ## Growth -/

theorem Layered.of_types (h : s.Layered) (ht : s'.types = s.types) : s'.Layered where
  earlier hty := h.earlier (by simpa only [type?, ht] using hty)
  absent := by simpa only [type?, ht] using h.absent

/-- A type more, of types that are there. -/
theorem Layered.addType (h : s.Layered) {t : Ty} (known : ∀ x ∈ t.form.types, s.HasType x)
    (ht : s'.types = s.types.push t) : s'.Layered := by
  refine Layered.of_types (s := (s.addType t).2) ⟨fun {ty u} hu => ?_, ?_⟩ ht
  · rw [type?_addType] at hu
    split at hu
    · next hty =>
      obtain rfl := Option.some.inj hu
      exact hty ▸ known
    · exact h.earlier hu
  · exact type?_addType_old h.absent t

theorem Layered.enters (h : s.Layered) (he : Enters s s') : s'.Layered := by
  cases he with
  | package _ _ _ => exact h.addType (t := ⟨.package, some s.nextSymbol⟩) (by simp [TyForm.types]) rfl
  | top _ _ _ => exact h.addType (t := ⟨.cls, some s.nextSymbol⟩) (by simp [TyForm.types]) rfl
  | nested _ _ _ => exact h.addType (t := ⟨.cls, some s.nextSymbol⟩) (by simp [TyForm.types]) rfl

theorem Layered.entering (h : s.Layered) (he : Entering s s') : s'.Layered := by
  induction he with
  | refl => exact h
  | tail _ hstep ih => exact ih.enters hstep

theorem Grows.layered (hg : s.Grows l s') (h : s.Layered) : s'.Layered := by
  induction hg with
  | refl => exact h
  | ask _ asked ih => exact ih.entering asked.entering
  | rework _ _ ih => exact ih.of_types rfl
  | @method _ _ g d _ _ _ known ih => exact ih.addType (t := ⟨.method g, some d⟩) known rfl
  | field _ _ ih => exact ih.of_types rfl

/-- A type has no declaring symbol, or one of the store, and growth keeps it. -/
theorem Grows.declaring? (hg : s.Grows l s') (hl : s.Linked root mc) (h : s.Layered)
    (hty : s.HasType ty) : s'.declaring? ty = s.declaring? ty ∧
      (s.declaring? ty = none ∨ ∃ d, s.declaring? ty = some d ∧ s.HasSymbol d) := by
  have hsame : s'.declaring? ty = s.declaring? ty := by
    rw [Store.declaring?, hg.type? hty, Store.declaring?]
  refine ⟨hsame, ?_⟩
  obtain ⟨t, ht⟩ := hty.type?
  by_cases habsent : ty = .absent
  · refine .inl ?_
    rw [Store.declaring?, habsent, h.absent]
    rfl
  · obtain ⟨d, hd, hsym, -⟩ := (hl.types ty t ht).declared habsent
    exact .inr ⟨d, by simp [Store.declaring?, ht, hd], hsym⟩

/-- The key of the symbol that declares a type. -/
def keyBehind? (s : Store) (ty : TypeId) : Option Name := (s.declaring? ty).bind s.keyOf?

theorem Grows.keyBehind? (hg : s.Grows l s') (hl : s.Linked root mc) (h : s.Layered)
    (hty : s.HasType ty) : s'.keyBehind? ty = s.keyBehind? ty := by
  obtain ⟨hsame, hd⟩ := hg.declaring? hl h hty
  rw [Store.keyBehind?, hsame, Store.keyBehind?]
  rcases hd with hd | ⟨d, hd, hsym⟩
  · rw [hd]
    rfl
  · rw [hd]
    exact hg.keeps.keyOf? hsym

/-- Behind a class type is the flat name of the class. -/
theorem Sound.keyBehind? (h : s.Sound root mc) {flat : Name} (hty : s.ClassType flat ty) :
    s.keyBehind? ty = some flat := by
  obtain ⟨id, hc, -, rfl⟩ := hty
  rw [Store.keyBehind?, (h.declaring? hc).1]
  exact h.registered.keyOf? (r := .cls flat) hc

theorem Grows.nameBehind? (hg : s.Grows l s') (hl : s.Linked root mc) (h : s.Layered)
    (hty : s.HasType ty) : s'.nameBehind? ty = s.nameBehind? ty := by
  obtain ⟨hsame, hd⟩ := hg.declaring? hl h hty
  rw [Store.nameBehind?, hsame, Store.nameBehind?]
  rcases hd with hd | ⟨d, hd, hsym⟩
  · rw [hd]
    rfl
  · obtain ⟨sym, hs⟩ := hsym.symbol?
    obtain ⟨sym', hs', ho⟩ := hg.keeps.symbol? hs
    simp only [hd, Option.bind_some, hs, hs', Option.map_some, Symbol.qualifiedName_of_outline ho]

/-- Growth leaves the text of a type as it is. -/
theorem Grows.typeText (hg : s.Grows l s') (hl : s.Linked root mc) (h : s.Layered)
    (hty : s.HasType ty) : s'.typeText ty = s.typeText ty := by
  refine h.nests.typeText_eq fun x hx => ?_
  have hx := h.nests.hasType_of_reaches hty hx
  exact ⟨by rw [form?, hg.type? hx, form?], fun _ => hg.nameBehind? hl h hx⟩

theorem Grows.signatureText (hg : s.Grows l s') (hl : s.Linked root mc) (h : s.Layered)
    {g : Signature} (known : ∀ x ∈ g.types, s.HasType x) : s'.signatureText g = s.signatureText g :=
  signatureText_congr fun x hx => hg.typeText hl h (known x hx)

end Store

/-! ## The ground -/

theorem layered_pseudoStore (display : String) : (pseudoStore display).Layered := by
  have hsentinel : (sentinelStore display (some ⟨4⟩)).Layered := by
    refine ⟨fun {ty t} ht => ?_, rfl⟩
    obtain ⟨i⟩ := ty
    rcases i with _ | _ | _ | _ | _ | i <;> simp [type?, sentinelStore] at ht <;> subst ht <;>
      simp [Ty.absent, TyForm.types]
  have hprimitives : ∀ rows {s : Store}, s.Layered → (s.withPrimitives ⟨0⟩ rows).Layered := by
    intro rows
    induction rows with
    | nil => exact id
    | cons row rows ih =>
      intro s h
      exact ih (h.addType (t := ⟨.primitive row.1, some s.nextSymbol⟩) (by simp [TyForm.types]) rfl)
  have hpseudo : ∀ {s : Store} (name : Name) (scope : SymbolId → Scope) (owner : SymbolId), s.Layered →
      (s.withPseudo name scope owner).Layered := fun {s} _ _ _ h =>
    h.addType (t := ⟨.cls, some s.nextSymbol⟩) (by simp [TyForm.types]) rfl
  have hground : (primitiveStore display).Layered := hprimitives _ hsentinel
  rw [pseudoStore]
  generalize primitiveStore display = s₀ at hground ⊢
  have hfour := hpseudo WellKnown.empty.text .members ⟨0⟩ (hpseudo WellKnown.method.text .erroneous ⟨2⟩
    (hpseudo WellKnown.bound.text .erroneous ⟨2⟩ (hpseudo WellKnown.array.text .members ⟨2⟩ hground)))
  exact hfour.of_types rfl

theorem Session.Reachable.layered {st : Session} (h : st.Reachable) : st.store.Layered := by
  obtain ⟨-, display, l, hl⟩ := h.grown
  exact hl.layered (layered_pseudoStore display)

end SymbolTable
