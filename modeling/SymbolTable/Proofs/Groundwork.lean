/-
The ground of a table: what stands before any name is resolved.

Building a table begins with the sentinels, the primitive types and the
pseudo-classes. These steps depend on nothing but the store, so the store
they make is written out (`sentinelStore`, `primitiveStore`, `pseudoStore`),
and what holds of it is what every later step starts from (`Grounded`).

A run of steps is followed with `Ensures`: the steps give a result, and
something holds of it and of the world they leave.
-/
import SymbolTable.Proofs.Growth
import SymbolTable.Table.Build

namespace SymbolTable

/-! ## Runs of steps -/

namespace TableM

variable {α β : Type} {w : World} {Q : α → World → Prop} {R : β → World → Prop}

/-- From `w` the steps give a result, and `Q` holds of it. -/
def Ensures (m : TableM α) (w : World) (Q : α → World → Prop) : Prop :=
  ∃ a w', m.run w = (.ok a, w') ∧ Q a w'

theorem run_bind (m : TableM α) (f : α → TableM β) (w : World) : (m >>= f).run w =
    match m.run w with
    | (.error e, w') => (.error e, w')
    | (.ok a, w') => (f a).run w' := by
  simp only [run, ExceptT.run, Bind.bind, ExceptT.bind, ExceptT.mk, StateT.bind]
  generalize (m : World → Except TableError α × World) w = r
  obtain ⟨_ | _, w'⟩ := r <;> rfl

theorem Ensures.bind {m : TableM α} {f : α → TableM β}
    (h : m.Ensures w fun a w' => (f a).Ensures w' R) : (m >>= f).Ensures w R := by
  obtain ⟨a, w', hm, b, w'', hf, hR⟩ := h
  refine ⟨b, w'', ?_, hR⟩
  rw [run_bind, hm]
  exact hf

theorem Ensures.mono {m : TableM α} {Q' : α → World → Prop} (h : m.Ensures w Q)
    (hQ : ∀ a w', Q a w' → Q' a w') : m.Ensures w Q' := by
  obtain ⟨a, w', hm, hq⟩ := h
  exact ⟨a, w', hm, hQ a w' hq⟩

theorem ensures_pure {a : α} (h : Q a w) : (pure a : TableM α).Ensures w Q := ⟨a, w, rfl, h⟩

theorem ensures_ofWorld {f : World → Except TableError α × World} {a : α} {w' : World}
    (hf : f w = (.ok a, w')) (h : Q a w') : (ofWorld f).Ensures w Q := ⟨a, w', hf, h⟩

theorem ensures_total {f : World → α × World} (h : Q (f w).1 (f w).2) : (total f).Ensures w Q :=
  ⟨_, _, rfl, h⟩

theorem ensures_add {f : Store → α × Store} (h : Q (f w.store).1 { w with store := (f w.store).2 }) :
    (add f).Ensures w Q := ⟨_, _, rfl, h⟩

section

variable {Q : Unit → World → Prop}

theorem ensures_change {f : Store → Store} (h : Q () { w with store := f w.store }) :
    (change f).Ensures w Q := ⟨_, _, rfl, h⟩

theorem ensures_attempt {f : Store → Except TableError Store} {s : Store}
    (hf : f w.store = .ok s) (h : Q () { w with store := s }) : (attempt f).Ensures w Q :=
  ⟨(), { w with store := s }, by simp [attempt, run, ofWorld, ExceptT.run, ExceptT.mk, hf], h⟩

end

end TableM

open Build TableM Store

/-! ## Sentinels -/

/-- The store with the sentinels alone. The unknown type is declared later than the others, so its
symbol is a parameter. -/
def sentinelStore (display : String) (unknown : Option SymbolId) : Store where
  symbols := #[
    { modifiers := .empty, name := "", owner := none, ty := ⟨2⟩, sentinel := some .root,
      body := .package ⟨"", .members ⟨0⟩, none⟩ },
    { modifiers := .empty, name := "", owner := some ⟨0⟩, ty := ⟨3⟩, sentinel := some .unnamed,
      body := .package ⟨"", .members ⟨1⟩, some display⟩ },
    { modifiers := .empty, name := "", owner := some ⟨0⟩, ty := .absent, sentinel := some .noSymbol,
      body := .nil },
    { modifiers := sentinelModifiers, name := WellKnown.any.text, owner := some ⟨0⟩, ty := ⟨4⟩,
      sentinel := some .error,
      body := .cls { ClassInfo.named WellKnown.any.text WellKnown.any.text with
        members := some (.erroneous ⟨3⟩), erroneous := true } },
    { modifiers := sentinelModifiers, name := WellKnown.unknownAny.text, owner := some ⟨0⟩,
      ty := ⟨1⟩, sentinel := some .unknown,
      body := .cls { ClassInfo.named WellKnown.unknownAny.text WellKnown.unknownAny.text with
        members := some (.erroneous ⟨4⟩) } }]
  types := #[.absent, ⟨.primitive .unknown, unknown⟩, ⟨.package, some ⟨0⟩⟩, ⟨.package, some ⟨1⟩⟩,
    ⟨.error none, some ⟨3⟩⟩]
  classes := .empty
  packages := OrderedMap.empty.insert "" ⟨0⟩

/-- The sentinels by identity. -/
def sentinelIds : Sentinels := ⟨⟨0⟩, ⟨1⟩, ⟨2⟩, ⟨3⟩, ⟨4⟩, ⟨4⟩, ⟨1⟩⟩

theorem enterSentinels_ensures (messages : Messages) {w : World} (h : w.store = .empty) :
    (enterSentinels messages).Ensures w fun s w' => s = sentinelIds ∧
      w'.store = sentinelStore (messages unnamedPackageKey) none := by
  obtain ⟨names, path, store, requests⟩ := w
  subst h
  have hfst : ∀ (s : Store) (sym : Symbol), (s.addSymbol sym).1 = s.nextSymbol := fun _ _ => rfl
  -- each symbol is added and then changed, which comes to adding the changed symbol
  refine .bind (ensures_add ?_)
  refine .bind (ensures_add ?_)
  refine .bind (ensures_change ?_)
  simp only [addPackage_eq, extend_update]
  refine .bind (ensures_change ?_)
  refine .bind (ensures_add ?_)
  refine .bind (ensures_change ?_)
  refine .bind (ensures_change ?_)
  simp only [extend_update]
  refine .bind (ensures_add ?_)
  refine .bind (ensures_add ?_)
  refine .bind (ensures_add ?_)
  refine .bind (ensures_change ?_)
  have herr : ∀ (s : Store) (sym : Symbol) (id : SymbolId), (s.addSymbol sym).2.addErrorType id none =
      (s.nextType, s.extend ⟨.error none, some id⟩ sym) := fun _ _ _ => rfl
  simp only [addClassOf, herr, hfst, extend_update]
  refine .bind (ensures_attempt (updateClass_extend rfl _) ?_)
  refine .bind (ensures_add ?_)
  refine .bind (ensures_change ?_)
  simp only [hfst, addSymbol_update]
  refine .bind (ensures_attempt (updateClass_addSymbol rfl _) ?_)
  exact ensures_pure ⟨rfl, rfl⟩

theorem completer?_sentinelStore (display : String) (unknown : Option SymbolId) (id : SymbolId) :
    (sentinelStore display unknown).completer? id = none := by
  obtain ⟨i⟩ := id
  rcases i with _ | _ | _ | _ | _ | i <;> rfl

theorem linked_sentinelStore (display : String) (mc : SymbolId) :
    (sentinelStore display (some ⟨4⟩)).Linked ⟨0⟩ mc where
  hasRoot := Nat.zero_lt_succ 4
  symbols id sym hs := by
    have hnone : ∀ info c, sym.body = .cls info → info.completer ≠ some c := fun info c hb hc => by
      have h := completer?_eq_some.2 ⟨sym, info, hs, hb, hc⟩
      rw [completer?_sentinelStore] at h
      cases h
    obtain ⟨i⟩ := id
    rcases i with _ | _ | _ | _ | _ | i <;> simp [symbol?, sentinelStore] at hs <;> subst hs
    all_goals
      refine ⟨by simp, by simp, ?_, ?_, ?_, fun info c hb hc => absurd hc (hnone info c hb)⟩ <;>
      simp [Symbol.types, SymbolBody.types, ClassInfo.types, ClassInfo.named, HasType, sentinelStore,
        declaring?, type?, TypeId.absent, Symbol.kind, SymbolBody.kind, Symbol.members?,
        Scope.linked_members, Scope.linked_erroneous]
  types ty t ht := by
    obtain ⟨i⟩ := ty
    rcases i with _ | _ | _ | _ | _ | i <;> simp [type?, sentinelStore] at ht <;> subst ht
    all_goals
      constructor <;> simp [Ty.absent, TyForm.types, TypeId.absent, HasSymbol, sentinelStore, Ty.tag,
        TyForm.tag, typeOf, symbol?]

theorem registered_sentinelStore (display : String) (unknown : Option SymbolId) :
    (sentinelStore display unknown).Registered where
  cls h := by cases h
  package {full id} h := by
    have h' : (OrderedMap.empty.insert "" (⟨0⟩ : SymbolId)).get? full = some id := h
    rw [OrderedMap.get?_insert] at h'
    split at h'
    · next hf =>
      obtain rfl := Option.some.inj h'
      exact ⟨_, _, rfl, rfl, hf.symm⟩
    · simp at h'
  root := rfl

theorem phased_sentinelStore (display : String) (unknown : Option SymbolId) :
    (sentinelStore display unknown).Phased where
  phase h := by cases h
  pending h := by rw [completer?_sentinelStore] at h; cases h

/-! ## Primitive types -/

namespace Store

variable {s s' : Store}

/-- The store with a primitive type more, and with the public class that declares it. -/
def withPrimitive (s : Store) (root : SymbolId) (tag : Tag) (name : Name) : Store :=
  s.extend ⟨.primitive tag, some s.nextSymbol⟩
    { modifiers := .single .isPublic, name, owner := some root, ty := s.nextType, sentinel := none,
      body := .cls (.named name name) }

def withPrimitives (root : SymbolId) : List (Tag × Name × Option String) → Store → Store
  | [], s => s
  | (tag, name, _) :: rest, s => withPrimitives root rest (s.withPrimitive root tag name)

/-- The store in which `d` declares `ty`. -/
def declare (s : Store) (ty : TypeId) (d : SymbolId) : Store :=
  { s with types := s.types.modify ty.index fun t => { t with symbol := some d } }

theorem bindSymbol_eq {ty : TypeId} (h : s.declaring? ty = none) (d : SymbolId) :
    s.bindSymbol ty d = .ok (s.declare ty d) := by
  simp only [bindSymbol, h, declare]

theorem bindSymbol_same {ty : TypeId} {d : SymbolId} (h : s.declaring? ty = some d) :
    s.bindSymbol ty d = .ok s := by
  simp [bindSymbol, h]

theorem type?_declare (s : Store) (ty x : TypeId) (d : SymbolId) : (s.declare ty d).type? x =
    if x = ty then (s.type? x).map ({ · with symbol := some d }) else s.type? x := by
  obtain ⟨i⟩ := x
  obtain ⟨j⟩ := ty
  by_cases h : i = j
  · simp [declare, type?, Array.getElem?_modify, h]
  · simp [declare, type?, Array.getElem?_modify, h, Ne.symm h]

theorem keeps_declare {ty : TypeId} (h : s.declaring? ty = none) (d : SymbolId) :
    s.Keeps (s.declare ty d) where
  outline h := h
  form {x f} hf := by
    obtain ⟨t, ht, rfl⟩ := Option.map_eq_some_iff.1 hf
    by_cases hx : x = ty
    · simp [form?, type?_declare, hx, hx ▸ ht]
    · simp [form?, type?_declare, hx, ht]
  declaring {x e} he := by
    have hx : x ≠ ty := by
      intro heq
      simp [heq, h] at he
    simpa only [declaring?, type?_declare, hx, if_false] using he
  cls h := h
  package h := h

/-- A type is declared by the symbol that is added with it. -/
theorem bindSymbol_extend {t : Ty} (ht : t.symbol = none) (sym : Symbol) (d : SymbolId) :
    (s.extend t sym).bindSymbol s.nextType d = .ok (s.extend { t with symbol := some d } sym) := by
  rw [bindSymbol_eq (by rw [declaring?_next_extend, ht])]
  simp only [declare, extend, addSymbol, addType, nextType, modify_push]

/-- Declaring an old type and adding a new one may change places. -/
theorem declare_extend {ty : TypeId} (h : s.HasType ty) (d : SymbolId) (t : Ty) (sym : Symbol) :
    (s.extend t sym).declare ty d = (s.declare ty d).extend t sym := by
  simp only [declare, extend, addSymbol, addType, modify_push_of_lt h]

theorem declare_withPrimitive {ty : TypeId} (h : s.HasType ty) (d root : SymbolId) (tag : Tag)
    (name : Name) :
    (s.withPrimitive root tag name).declare ty d = (s.declare ty d).withPrimitive root tag name := by
  have hty : (s.declare ty d).nextType = s.nextType := by simp [nextType, declare]
  rw [withPrimitive, declare_extend h, withPrimitive, hty]
  rfl

theorem keeps_withPrimitive (s : Store) (root : SymbolId) (tag : Tag) (name : Name) :
    s.Keeps (s.withPrimitive root tag name) := s.keeps_extend _ _

theorem declare_withPrimitives {ty : TypeId} (h : s.HasType ty) (d root : SymbolId)
    (rows : List (Tag × Name × Option String)) :
    (s.withPrimitives root rows).declare ty d = (s.declare ty d).withPrimitives root rows := by
  induction rows generalizing s with
  | nil => rfl
  | cons row rows ih =>
    simp only [withPrimitives]
    rw [ih ((s.keeps_withPrimitive root _ _).hasType h), declare_withPrimitive h]

theorem keeps_withPrimitives (s : Store) (root : SymbolId)
    (rows : List (Tag × Name × Option String)) : s.Keeps (s.withPrimitives root rows) := by
  induction rows generalizing s with
  | nil => exact .refl s
  | cons row rows ih => exact (s.keeps_withPrimitive root _ _).trans (ih _)

theorem type?_withPrimitives_old {ty : TypeId} (h : s.HasType ty) (root : SymbolId)
    (rows : List (Tag × Name × Option String)) :
    (s.withPrimitives root rows).type? ty = s.type? ty := by
  induction rows generalizing s with
  | nil => rfl
  | cons row rows ih =>
    simp only [withPrimitives]
    rw [ih ((s.keeps_withPrimitive root _ _).hasType h), withPrimitive, type?_extend_old h]

/-- What holds of a store before the primitives holds of it after them. -/
theorem Linked.withPrimitives {root mc : SymbolId} (h : s.Linked root mc)
    {rows : List (Tag × Name × Option String)} (hrows : ∀ row ∈ rows, row.1 ≠ .method) :
    (s.withPrimitives root rows).Linked root mc := by
  induction rows generalizing s with
  | nil => exact h
  | cons row rows ih =>
    refine ih ?_ fun row' hrow => hrows row' (List.mem_cons_of_mem _ hrow)
    refine h.extend (.fresh h.hasRoot rfl h.hasRoot rfl rfl (fun _ => rfl) (fun sc hsc => ?_)
      fun info c hb hc => ?_) (.fresh (by simp [TyForm.types])
        (.inr ⟨hrows row (List.mem_cons_self ..), rfl, rfl⟩))
    · simp [Symbol.members?, ClassInfo.named] at hsc
    · obtain rfl := SymbolBody.cls.inj hb
      simp [ClassInfo.named] at hc

theorem Registered.withPrimitives (h : s.Registered) (root : SymbolId)
    (rows : List (Tag × Name × Option String)) : (s.withPrimitives root rows).Registered := by
  induction rows generalizing s with
  | nil => exact h
  | cons row rows ih => exact ih (h.of_maps (s.keeps_withPrimitive root _ _) rfl rfl)

theorem Phased.withPrimitives (h : s.Phased) (hr : s.Registered) (root : SymbolId)
    (rows : List (Tag × Name × Option String)) : (s.withPrimitives root rows).Phased := by
  induction rows generalizing s with
  | nil => exact h
  | cons row rows ih =>
    refine ih (h.extend hr _ fun info hb => ?_) (hr.of_maps (s.keeps_withPrimitive root _ _) rfl rfl)
    exact SymbolBody.cls.inj hb ▸ rfl

end Store

namespace Primitives

variable {s s' : Store} {p : Primitives}

/-- Every type of the table has its tag, and a class that declares it. -/
def Sound (s : Store) (p : Primitives) : Prop :=
  ∀ tag ty, p.type? tag = some ty → ∃ f d, s.form? ty = some f ∧ f.tag = tag ∧
    s.declaring? ty = some d ∧ (s.classInfo? d).isSome

theorem Sound.mono (h : p.Sound s) (hk : s.Keeps s') : p.Sound s' := by
  intro tag ty hty
  obtain ⟨f, d, hf, htag, hd, hc⟩ := h tag ty hty
  exact ⟨f, d, hk.form hf, htag, hk.declaring hd, hk.isSome_classInfo? hc⟩

/-- The table with the type of one more tag. -/
def withType (p : Primitives) (tag : Tag) (ty : TypeId) : Primitives :=
  { p with types := p.types.insert tag ty }

/-- The table with the wrapper of one more tag, if it has one. -/
def withBox (p : Primitives) (tag : Tag) : Option String → Primitives
  | none => p
  | some simple => { p with boxes := p.boxes.insert tag (boxName simple) }

/-- The table with the types and the wrappers of several rows. Types are numbered from `ty` on. -/
def withRows : List (Tag × Name × Option String) → TypeId → Primitives → Primitives
  | [], _, p => p
  | (tag, _, box) :: rest, ty, p =>
    withRows rest ⟨ty.index + 1⟩ ((p.withType tag ty).withBox tag box)

theorem type?_withType (p : Primitives) (tag tag' : Tag) (ty : TypeId) :
    (p.withType tag ty).type? tag' = if tag' = tag then some ty else p.type? tag' :=
  OrderedMap.get?_insert ..

@[simp] theorem type?_withBox (p : Primitives) (tag tag' : Tag) (box : Option String) :
    (p.withBox tag box).type? tag' = p.type? tag' := by cases box <;> rfl

theorem Sound.withType (h : p.Sound s) {tag : Tag} {ty : TypeId} {f : TyForm} {d : SymbolId}
    (hf : s.form? ty = some f) (htag : f.tag = tag) (hd : s.declaring? ty = some d)
    (hc : (s.classInfo? d).isSome) : (p.withType tag ty).Sound s := by
  intro tag' ty' hty
  rw [type?_withType] at hty
  split at hty
  · next he =>
    obtain rfl := Option.some.inj hty
    exact ⟨f, d, hf, htag.trans he.symm, hd, hc⟩
  · exact h tag' ty' hty

/-- Registering a tag that is new adds its type, its class and its wrapper. -/
theorem register_eq {tag : Tag} (h : p.type? tag = none) (root : SymbolId) (name : Name)
    (box : Option String) (w : World) : ∃ names, p.register root tag name box w =
      (.ok (w.store.nextType, (p.withType tag w.store.nextType).withBox tag box),
        { w with names, store := w.store.withPrimitive root tag name }) := by
  have hbind := bindSymbol_extend (s := w.store) (t := ⟨.primitive tag, none⟩) rfl
    { modifiers := .single .isPublic, name, owner := some root, ty := w.store.nextType,
      sentinel := none, body := .cls (.named name name) } w.store.nextSymbol
  have hadd : (w.store.addPrimitive tag).2.addClassOf (.single .isPublic) name name name
      w.store.nextType root = (w.store.nextSymbol, w.store.extend ⟨.primitive tag, none⟩
        { modifiers := .single .isPublic, name, owner := some root, ty := w.store.nextType,
          sentinel := none, body := .cls (.named name name) }) := rfl
  have hty : (w.store.addPrimitive tag).1 = w.store.nextType := rfl
  cases box with
  | none =>
    refine ⟨(w.see name).names, ?_⟩
    simp only [register, h, hty, hadd, hbind]
    rfl
  | some simple =>
    refine ⟨((w.see name).see (boxName simple)).names, ?_⟩
    simp only [register, h, hty, hadd, hbind]
    rfl

end Primitives

theorem registerAll_ensures (root : SymbolId) {rows : List (Tag × Name × Option String)}
    {p : Primitives} {w : World} (hs : p.Sound w.store) (hnew : ∀ row ∈ rows, p.type? row.1 = none)
    (hnd : (rows.map (·.1)).Nodup) :
    (registerAll root p rows).Ensures w fun p' w' =>
      w'.store = w.store.withPrimitives root rows ∧ p'.Sound w'.store ∧
        p' = .withRows rows w.store.nextType p := by
  induction rows generalizing p w with
  | nil => exact ensures_pure ⟨rfl, hs, rfl⟩
  | cons row rows ih =>
    obtain ⟨tag, name, box⟩ := row
    obtain ⟨names, hreg⟩ := Primitives.register_eq (hnew _ (List.mem_cons_self ..)) root name box w
    refine .bind (ensures_ofWorld hreg ?_)
    have hk := w.store.keeps_withPrimitive root tag name
    have hdecl := declaring?_next_extend w.store ⟨.primitive tag, some w.store.nextSymbol⟩
      { modifiers := .single .isPublic, name, owner := some root, ty := w.store.nextType,
        sentinel := none, body := .cls (.named name name) }
    obtain ⟨hnotin, hnd⟩ := List.nodup_cons.1 hnd
    have hs₁ : ((p.withType tag w.store.nextType).withBox tag box).Sound
        (w.store.withPrimitive root tag name) := by
      intro tag' ty' hty
      rw [Primitives.type?_withBox] at hty
      refine (hs.mono hk).withType (f := .primitive tag) (d := w.store.nextSymbol) ?_ rfl hdecl ?_
        tag' ty' hty
      · simp [form?, withPrimitive, type?_extend]
      · simp [classInfo?, withPrimitive, symbol?_extend, Symbol.classInfo?]
    have hnew₁ : ∀ row ∈ rows,
        ((p.withType tag w.store.nextType).withBox tag box).type? row.1 = none := by
      intro row hrow
      have hne : row.1 ≠ tag := fun he => hnotin (List.mem_map.2 ⟨row, hrow, he⟩)
      rw [Primitives.type?_withBox, Primitives.type?_withType, if_neg hne]
      exact hnew row (List.mem_cons_of_mem _ hrow)
    have hnext : (w.store.withPrimitive root tag name).nextType = ⟨w.store.nextType.index + 1⟩ := by
      simp [withPrimitive, extend, addSymbol, addType, nextType]
    refine (ih (w := { w with names, store := w.store.withPrimitive root tag name }) hs₁ hnew₁
      hnd).mono ?_
    rintro p' w' ⟨hstore, hsound, hp'⟩
    refine ⟨hstore, hsound, ?_⟩
    rw [hp', hnext]
    rfl

theorem registerExisting_ensures {p : Primitives} {tag : Tag} {ty : TypeId} {d : SymbolId} {w : World}
    {s : Store} {Q : Primitives → World → Prop} (hnew : p.type? tag = none)
    (hb : w.store.bindSymbol ty d = .ok s) (h : Q (p.withType tag ty) { w with store := s }) :
    (registerExisting p tag ty d).Ensures w Q := by
  refine ensures_ofWorld ?_ h
  simp only [Primitives.registerExisting, hnew, hb]
  rfl

/-- The store with the sentinels and the primitive types. -/
def primitiveStore (display : String) : Store :=
  (sentinelStore display (some ⟨4⟩)).withPrimitives ⟨0⟩ primitiveClasses

/-- The table of primitives has every primitive tag, and the wrappers that the rows name. -/
structure Primitives.Complete (p : Primitives) : Prop where
  types : ∀ tag, (p.type? tag).isSome ↔ tag ∈ Tag.primitives
  boxes : ∀ row ∈ primitiveClasses, p.box? row.1 = row.2.2.map Primitives.boxName

/-- The primitive types by identity. -/
def primitiveIds : Primitives :=
  ((Primitives.withRows primitiveClasses ⟨5⟩ .empty).withType .error ⟨4⟩).withType .unknown ⟨1⟩

theorem complete_primitiveIds : primitiveIds.Complete where
  types tag := by
    have hall : ∀ tag ∈ Tag.all, (primitiveIds.type? tag).isSome ↔ tag ∈ Tag.primitives := by decide
    exact hall tag tag.mem_all
  boxes := by decide

theorem enterPrimitives_ensures {display : String} {w : World}
    (h : w.store = sentinelStore display none) :
    (enterPrimitives sentinelIds).Ensures w fun p w' =>
      w'.store = primitiveStore display ∧ p.Sound w'.store ∧ p = primitiveIds := by
  have hempty : ∀ tag, Primitives.empty.type? tag = none := fun _ => rfl
  refine .bind ((registerAll_ensures _ (fun tag ty hty => by simp [hempty] at hty)
    (fun row _ => hempty row.1) (by decide)).mono fun p w₁ ⟨hstore, hsound, hp⟩ => ?_)
  rw [h] at hstore hp
  have hp' : p = Primitives.withRows primitiveClasses ⟨5⟩ .empty := hp
  have hk : (sentinelStore display none).Keeps w₁.store := hstore ▸ keeps_withPrimitives ..
  -- the error type is declared already
  have herror : w₁.store.declaring? ⟨4⟩ = some ⟨3⟩ := hk.declaring rfl
  have hnone : p.type? .error = none ∧ p.type? .unknown = none := by
    rw [hp']
    decide
  refine .bind (registerExisting_ensures hnone.1 (bindSymbol_same herror) ?_)
  have hsound₁ : (p.withType .error ⟨4⟩).Sound w₁.store :=
    hsound.withType (hk.form rfl) rfl herror (hk.isSome_classInfo? rfl)
  -- the unknown type is declared now, which might as well have been done before the primitives
  have hlt : (sentinelStore display none).HasType ⟨1⟩ := by simp [HasType, sentinelStore]
  have hunknown : w₁.store.declaring? ⟨1⟩ = none := by
    rw [hstore, declaring?, type?_withPrimitives_old hlt]
    rfl
  have hdeclare : w₁.store.declare ⟨1⟩ ⟨4⟩ = primitiveStore display := by
    rw [hstore, declare_withPrimitives hlt]
    rfl
  have hk' : (sentinelStore display (some ⟨4⟩)).Keeps (primitiveStore display) :=
    keeps_withPrimitives ..
  have hnew : (p.withType .error ⟨4⟩).type? .unknown = none := by
    rw [Primitives.type?_withType]
    exact hnone.2
  refine registerExisting_ensures hnew (bindSymbol_eq hunknown ⟨4⟩) ⟨hdeclare, ?_, ?_⟩
  · have hsound₂ := hsound₁.mono (keeps_declare hunknown ⟨4⟩)
    simp only [hdeclare] at hsound₂ ⊢
    exact hsound₂.withType (hk'.form rfl) rfl (hk'.declaring rfl) (hk'.isSome_classInfo? rfl)
  · rw [hp']
    rfl

/-! ## Pseudo-classes -/

namespace Store

variable {s : Store} {root mc owner : SymbolId}

/-- The store with a pseudo-class more. -/
def withPseudo (s : Store) (name : Name) (scope : SymbolId → Scope) (owner : SymbolId) : Store :=
  s.extend ⟨.cls, some s.nextSymbol⟩
    { modifiers := pseudoModifiers, name, owner := some owner, ty := s.nextType, sentinel := none,
      body := .cls { ClassInfo.named name name with members := some (scope s.nextSymbol) } }

theorem symbol?_withPseudo_self (s : Store) (name : Name) (scope : SymbolId → Scope)
    (owner : SymbolId) : (s.withPseudo name scope owner).symbol? s.nextSymbol =
      some { modifiers := pseudoModifiers, name, owner := some owner, ty := s.nextType,
             sentinel := none,
             body := .cls { ClassInfo.named name name with members := some (scope s.nextSymbol) } } := by
  rw [withPseudo, symbol?_extend, if_pos rfl]

theorem form?_withPseudo_self (s : Store) (name : Name) (scope : SymbolId → Scope)
    (owner : SymbolId) : (s.withPseudo name scope owner).form? s.nextType = some .cls := by
  simp [form?, withPseudo, type?_extend]

theorem Linked.withPseudo (h : s.Linked root mc) (name : Name) (scope : SymbolId → Scope)
    (hscope : ∀ id, (scope id).Linked s id) (ho : s.HasSymbol owner) :
    (s.withPseudo name scope owner).Linked root mc := by
  refine h.extend (.fresh h.hasRoot rfl ho rfl rfl (fun _ => rfl) (fun sc hsc => ?_)
    fun info c hb hc => ?_) (.fresh (by simp [TyForm.types])
      (.inr ⟨by simp [Ty.tag, TyForm.tag], rfl, rfl⟩))
  · exact Option.some.inj hsc ▸ hscope _
  · obtain rfl := SymbolBody.cls.inj hb
    simp [ClassInfo.named] at hc

theorem Sound.withPseudo (h : s.Sound root mc) (name : Name) (scope : SymbolId → Scope)
    (hscope : ∀ id, (scope id).Linked s id) (ho : s.HasSymbol owner) :
    s.Advances root mc (s.withPseudo name scope owner) where
  keeps := s.keeps_extend _ _
  spares := s.spares_extend _ _
  sound := ⟨h.linked.withPseudo name scope hscope ho, h.registered.of_maps (s.keeps_extend _ _) rfl rfl,
    h.phased.extend h.registered _ fun _ hb => SymbolBody.cls.inj hb ▸ rfl⟩

theorem inPhase_withPseudo (s : Store) (name : Name) (owner : SymbolId) :
    (s.withPseudo name .members owner).InPhase s.nextSymbol .completed :=
  ⟨_, _, symbol?_withPseudo_self .., rfl, rfl, rfl, _, rfl, rfl⟩

theorem lookupMember_withPseudo (s : Store) (name : Name) (owner : SymbolId) (n : Name) :
    (s.withPseudo name .members owner).lookupMember s.nextSymbol n = [] := by
  have hmembers : (s.withPseudo name .members owner).members? s.nextSymbol =
      some (.members s.nextSymbol) :=
    congrArg (Option.bind · Symbol.members?) (symbol?_withPseudo_self ..)
  rw [lookupMember, hmembers]
  rfl

end Store

/-- A pseudo-class gets its scope as soon as it is added. -/
theorem addPseudoClass_ensures {α : Type} {w : World} {Q : α → World → Prop} {name : Name}
    {owner : SymbolId} (scope : SymbolId → Scope) {reset : SymbolId → Store → Except TableError Store}
    {rest : SymbolId → TableM α}
    (hreset : ∀ id s, reset id s = s.updateClass id ({ · with members := some (scope id) }))
    (h : (rest w.store.nextSymbol).Ensures { w with store := w.store.withPseudo name scope owner } Q) :
    (do let id ← addPseudoClass name owner; attempt (reset id); rest id).Ensures w Q := by
  refine .bind (ensures_add (.bind (ensures_attempt ?_ h)))
  rw [hreset]
  exact updateClass_extend rfl _

theorem Store.nextSymbol_extend (s : Store) (t : Ty) (sym : Symbol) :
    (s.extend t sym).nextSymbol = ⟨s.nextSymbol.index + 1⟩ := by
  simp [extend, addSymbol, addType, nextSymbol]

theorem Store.nextSymbol_withPseudo (s : Store) (name : Name) (scope : SymbolId → Scope)
    (owner : SymbolId) : (s.withPseudo name scope owner).nextSymbol = ⟨s.nextSymbol.index + 1⟩ :=
  s.nextSymbol_extend _ _

theorem Store.nextSymbol_withPrimitives (s : Store) (root : SymbolId)
    (rows : List (Tag × Name × Option String)) :
    (s.withPrimitives root rows).nextSymbol = ⟨s.nextSymbol.index + rows.length⟩ := by
  induction rows generalizing s with
  | nil => rfl
  | cons row rows ih =>
    rw [withPrimitives, ih, withPrimitive, nextSymbol_extend, List.length_cons, Nat.add_assoc,
      Nat.add_comm 1]

/-- The pseudo-classes by identity. -/
def pseudoIds : PseudoClasses := ⟨⟨15⟩, ⟨16⟩, ⟨17⟩, ⟨18⟩⟩

theorem nextSymbol_primitiveStore (display : String) :
    (primitiveStore display).nextSymbol = pseudoIds.array := by
  rw [primitiveStore, nextSymbol_withPrimitives]
  rfl

/-- The store with the sentinels, the primitive types and the pseudo-classes. -/
def pseudoStore (display : String) : Store :=
  (((((primitiveStore display).withPseudo WellKnown.array.text .members ⟨2⟩).withPseudo
    WellKnown.bound.text .erroneous ⟨2⟩).withPseudo WellKnown.method.text .erroneous ⟨2⟩).withPseudo
    WellKnown.empty.text .members ⟨0⟩).insertClass "" pseudoIds.predef

theorem enterPseudoClasses_ensures {display : String} {w : World}
    (h : w.store = primitiveStore display) :
    (enterPseudoClasses sentinelIds).Ensures w fun c w' =>
      c = pseudoIds ∧ w'.store = pseudoStore display := by
  obtain ⟨names, path, store, requests⟩ := w
  subst h
  refine addPseudoClass_ensures .members (fun _ _ => rfl) ?_
  refine addPseudoClass_ensures .erroneous (fun _ _ => rfl) ?_
  refine addPseudoClass_ensures .erroneous (fun _ _ => rfl) ?_
  refine addPseudoClass_ensures .members (fun _ _ => rfl) ?_
  refine .bind (ensures_change (ensures_pure ?_))
  simp only [nextSymbol_withPseudo, nextSymbol_primitiveStore]
  exact ⟨rfl, rfl⟩

theorem sound_primitiveStore (display : String) (mc : SymbolId) :
    (primitiveStore display).Sound ⟨0⟩ mc where
  linked := (linked_sentinelStore display mc).withPrimitives (by decide)
  registered := (registered_sentinelStore display _).withPrimitives ..
  phased := (phased_sentinelStore display _).withPrimitives (registered_sentinelStore display _) ..

theorem class?_withPrimitives (s : Store) (root : SymbolId)
    (rows : List (Tag × Name × Option String)) (n : Name) :
    (s.withPrimitives root rows).class? n = s.class? n := by
  induction rows generalizing s with
  | nil => rfl
  | cons row rows ih => exact ih _

/-- What stands before any name is resolved. -/
structure Grounded (display : String) (s : Store) (p : Primitives) : Prop where
  grown : (pseudoStore display).Grows [] s
  sentinels : (sentinelStore display (some ⟨4⟩)).Keeps s
  sound : s.Sound ⟨0⟩ pseudoIds.method
  bound : s.HasSymbol pseudoIds.bound
  method : s.HasSymbol pseudoIds.method
  array : s.InPhase pseudoIds.array .completed
  predef : s.InPhase pseudoIds.predef .completed
  /-- The members of the predefined class are classes, so far. -/
  members : ∀ n, ∀ x ∈ s.lookupMember pseudoIds.predef n, (s.classInfo? x).isSome
  registered : ∀ flat id, s.class? flat = some id ↔ flat = "" ∧ id = pseudoIds.predef
  primitives : p.Sound s

theorem grounded_pseudoStore {display : String} {p : Primitives}
    (hp : p.Sound (primitiveStore display)) : Grounded display (pseudoStore display) p := by
  have hk₀ : (sentinelStore display (some ⟨4⟩)).Keeps (primitiveStore display) :=
    keeps_withPrimitives ..
  have hroot : (sentinelStore display (some ⟨4⟩)).HasSymbol ⟨0⟩ := by simp [HasSymbol, sentinelStore]
  have hno : (sentinelStore display (some ⟨4⟩)).HasSymbol ⟨2⟩ := by simp [HasSymbol, sentinelStore]
  have hfresh : ∀ n, (primitiveStore display).class? n = none :=
    fun n => class?_withPrimitives _ _ _ n
  have hsound := sound_primitiveStore display pseudoIds.method
  have hgrown : (pseudoStore display).Grows [] (pseudoStore display) := .refl
  have hnext₀ := nextSymbol_primitiveStore display
  nth_rewrite 2 [pseudoStore] at hgrown
  rw [pseudoStore]
  generalize primitiveStore display = s₀ at hk₀ hfresh hsound hp hgrown hnext₀ ⊢
  set s₁ := s₀.withPseudo WellKnown.array.text .members ⟨2⟩
  set s₂ := s₁.withPseudo WellKnown.bound.text .erroneous ⟨2⟩
  set s₃ := s₂.withPseudo WellKnown.method.text .erroneous ⟨2⟩
  set s₄ := s₃.withPseudo WellKnown.empty.text .members ⟨0⟩
  have hnext₁ : s₁.nextSymbol = pseudoIds.bound := by rw [nextSymbol_withPseudo, hnext₀]; rfl
  have hnext₂ : s₂.nextSymbol = pseudoIds.method := by rw [nextSymbol_withPseudo, hnext₁]; rfl
  have hnext₃ : s₃.nextSymbol = pseudoIds.predef := by rw [nextSymbol_withPseudo, hnext₂]; rfl
  have h₁ := hsound.withPseudo WellKnown.array.text .members
    (Scope.linked_members _) (hk₀.hasSymbol hno)
  have h₂ := h₁.sound.withPseudo WellKnown.bound.text .erroneous
    (Scope.linked_erroneous _) (h₁.keeps.hasSymbol (hk₀.hasSymbol hno))
  have h₁₂ := h₁.trans h₂
  have h₃ := h₂.sound.withPseudo WellKnown.method.text .erroneous
    (Scope.linked_erroneous _) (h₁₂.keeps.hasSymbol (hk₀.hasSymbol hno))
  have h₁₃ := h₁₂.trans h₃
  have h₄ := h₃.sound.withPseudo WellKnown.empty.text .members
    (Scope.linked_members _) (h₁₃.keeps.hasSymbol (hk₀.hasSymbol hroot))
  have hfresh₄ : ∀ n, s₄.class? n = none := hfresh
  have hk₅ := keeps_insertClass (s := s₄) pseudoIds.predef (hfresh₄ "")
  have hall : s₀.Keeps (s₄.insertClass "" pseudoIds.predef) := (h₁₃.keeps.trans h₄.keeps).trans hk₅
  have harray : s₁.InPhase pseudoIds.array .completed := hnext₀ ▸ s₀.inPhase_withPseudo _ _
  have hpredef : s₄.InPhase pseudoIds.predef .completed := hnext₃ ▸ s₃.inPhase_withPseudo _ _
  have hself := s₃.symbol?_withPseudo_self WellKnown.empty.text .members ⟨0⟩
  have hclass : ∀ n x, (s₄.insertClass "" pseudoIds.predef).class? n = some x ↔
      n = "" ∧ x = pseudoIds.predef := by
    intro n x
    rw [class?_insertClass, hfresh₄]
    split <;> simp_all [eq_comm]
  constructor
  · exact hgrown
  · exact hk₀.trans hall
  · refine ⟨h₄.sound.linked.insertClass (hfresh₄ "") _, ?_, h₄.sound.phased.insertClass (hfresh₄ "") hpredef⟩
    refine h₄.sound.registered.of_keeps hk₅ (fun n x hc => .inr ?_) fun _ _ hp => .inl hp
    obtain ⟨rfl, rfl⟩ := (hclass n x).1 hc
    rw [hnext₃] at hself
    exact ⟨_, _, hself, rfl, rfl, s₃.form?_withPseudo_self WellKnown.empty.text .members ⟨0⟩⟩
  · exact (h₃.keeps.trans (h₄.keeps.trans hk₅)).hasSymbol (hnext₁ ▸ hasSymbol_next_extend ..)
  · exact (h₄.keeps.trans hk₅).hasSymbol (hnext₂ ▸ hasSymbol_next_extend ..)
  · exact ((harray.extend _ _).extend _ _).extend _ _
  · exact hpredef
  · intro n x hx
    have hnone : s₄.lookupMember pseudoIds.predef n = [] := hnext₃ ▸ s₃.lookupMember_withPseudo _ _ n
    exact absurd (hnone ▸ hx : x ∈ []) List.not_mem_nil
  · exact hclass
  · exact hp.mono hall

/-- The primitive types are found on the ground. -/
theorem grounded_primitiveIds (display : String) :
    Grounded display (pseudoStore display) primitiveIds := by
  obtain ⟨_, w, -, hstore, hp, rfl⟩ := enterPrimitives_ensures
    (w := { World.empty with store := sentinelStore display none }) rfl
  exact grounded_pseudoStore (hstore ▸ hp)

section Grounded

variable {display : String} {s : Store} {p : Primitives}

/-- The store with a class more among the members of the predefined class. -/
def Store.withPredefined (s : Store) (x : SymbolId) : Store :=
  s.update pseudoIds.predef (Symbol.mapMembers fun scope => scope.enter (s.nameOf x) x)

/-- A class becomes a member of the predefined class. -/
theorem Grounded.enterMember (h : Grounded display s p) {x : SymbolId}
    (hx : (s.classInfo? x).isSome) :
    s.enterMember pseudoIds.predef x = .ok (s.withPredefined x) ∧
      Grounded display (s.withPredefined x) p := by
  refine ⟨h.predef.enterMember x, ?_⟩
  obtain ⟨info, hinfo⟩ := Option.isSome_iff_exists.1 hx
  obtain ⟨sym, hs, -⟩ := classInfo?_eq_some.1 hinfo
  obtain ⟨predef, pinfo, hpredef, hbody, -⟩ := id h.predef
  have hk := keeps_mapMembers s pseudoIds.predef fun scope => scope.enter (s.nameOf x) x
  exact {
    grown := h.grown.update (by simp [classInfo?_eq_some.2 ⟨predef, hpredef, hbody⟩])
      (Symbol.outline_mapMembers _)
    sentinels := h.sentinels.trans hk
    sound := h.sound.enterMember h.predef (hasSymbol_of_symbol? hs)
    bound := hk.hasSymbol h.bound
    method := hk.hasSymbol h.method
    array := (sameClass_update s _ (by decide)).inPhase.2 h.array
    predef := h.predef.mapMembers _ x
    members := by
      intro n y hy
      rw [withPredefined, h.predef.lookupMember] at hy
      rcases List.mem_append.1 hy with hy | hy
      · exact hk.isSome_classInfo? (h.members n y hy)
      · split at hy
        · obtain rfl := List.mem_singleton.1 hy
          exact hk.isSome_classInfo? hx
        · cases hy
    registered := h.registered
    primitives := h.primitives.mono hk }

theorem enterPrimitiveClasses_ensures {tags : List Tag} {w : World} (h : Grounded display w.store p)
    (htags : ∀ tag ∈ tags, (p.type? tag).isSome) :
    (enterPrimitiveClasses p pseudoIds.predef tags).Ensures w fun _ w' =>
      Grounded display w'.store p ∧ w'.store =
        (tags.filterMap fun tag => (p.type? tag).bind w.store.declaring?).foldl withPredefined
          w.store := by
  induction tags generalizing w with
  | nil => exact ensures_pure ⟨h, rfl⟩
  | cons tag tags ih =>
    obtain ⟨ty, hty⟩ := Option.isSome_iff_exists.1 (htags tag (List.mem_cons_self ..))
    obtain ⟨f, d, -, -, hd, hclass⟩ := h.primitives tag ty hty
    obtain ⟨henter, hs'⟩ := h.enterMember hclass
    have hlisted : (p.type? tag).bind w.store.declaring? = some d := by rw [hty, Option.bind_some, hd]
    have hrequire : (p.require tag, w) = (.ok ty, w) := by simp [Primitives.require, hty]
    refine .bind (ensures_ofWorld hrequire ?_)
    refine .bind (ensures_total ?_)
    simp only [hd]
    refine .bind (ensures_attempt henter ((ih hs' fun tag' htag =>
      htags tag' (List.mem_cons_of_mem _ htag)).mono fun _ w' ⟨hground, hstore⟩ => ⟨hground, ?_⟩))
    rw [List.filterMap_cons, hlisted]
    exact hstore

/-- The sentinels and the pseudo-classes are there. -/
theorem Grounded.hasSymbol (h : Grounded display s p) :
    ∀ x ∈ [⟨0⟩, ⟨1⟩, ⟨2⟩, ⟨3⟩, ⟨4⟩, pseudoIds.array, pseudoIds.bound, pseudoIds.method,
      pseudoIds.predef], s.HasSymbol x := by
  have hlt : ∀ i, i < 5 → s.HasSymbol ⟨i⟩ := fun i hi => h.sentinels.hasSymbol hi
  simp [hlt, h.array.hasSymbol, h.bound, h.method, h.predef.hasSymbol]

/-- The unknown type and the error type are there. -/
theorem Grounded.hasType (h : Grounded display s p) : ∀ ty ∈ [⟨1⟩, ⟨4⟩], s.HasType ty := by
  have hlt : ∀ i, i < 5 → s.HasType ⟨i⟩ := fun i hi => h.sentinels.hasType hi
  simp [hlt]

end Grounded

/-- The store with all that stands before any name is resolved. -/
def groundStore (display : String) : Store :=
  (((primitiveClasses.map (·.1)).filterMap fun tag =>
    (primitiveIds.type? tag).bind (pseudoStore display).declaring?).foldl withPredefined
      (pseudoStore display)).withPredefined ⟨3⟩

/-- The steps before any name is resolved, with whatever follows. -/
theorem ground_ensures {α : Type} {Q : α → World → Prop} (messages : Messages) {w : World}
    (hw : w.store = .empty) {rest : Sentinels → Primitives → PseudoClasses → TableM α}
    (h : ∀ w', Grounded (messages unnamedPackageKey) w'.store primitiveIds →
      w'.store = groundStore (messages unnamedPackageKey) →
      (rest sentinelIds primitiveIds pseudoIds).Ensures w' Q) :
    (do
      let s ← enterSentinels messages
      let primitives ← enterPrimitives s
      let pseudo ← enterPseudoClasses s
      enterPrimitiveClasses primitives pseudo.predef (primitiveClasses.map Prod.fst)
      attempt (·.enterMember pseudo.predef s.errorSymbol)
      rest s primitives pseudo).Ensures w Q := by
  refine .bind ((enterSentinels_ensures messages hw).mono ?_)
  intro s w₁ hs
  obtain ⟨rfl, hstore₁⟩ := hs
  refine .bind ((enterPrimitives_ensures hstore₁).mono ?_)
  rintro p w₂ ⟨hstore₂, hp, rfl⟩
  refine .bind ((enterPseudoClasses_ensures hstore₂).mono ?_)
  intro c w₃ hpseudo
  obtain ⟨rfl, hstore₃⟩ := hpseudo
  have h₃ : Grounded _ w₃.store primitiveIds := hstore₃ ▸ grounded_pseudoStore (hstore₂ ▸ hp)
  refine .bind ((enterPrimitiveClasses_ensures h₃ fun tag htag => ?_).mono
    fun _ w₄ ⟨h₄, hstore₄⟩ => ?_)
  · rw [complete_primitiveIds.types]
    revert tag
    decide
  -- the error class becomes a member last
  obtain ⟨henter, h₅⟩ := h₄.enterMember (x := ⟨3⟩) (h₄.sentinels.isSome_classInfo? rfl)
  refine .bind (ensures_attempt henter
    (h { w₄ with store := w₄.store.withPredefined ⟨3⟩ } h₅ ?_))
  rw [hstore₄, hstore₃]
  rfl

end SymbolTable
