/-
What every operation on a store keeps.

A store is sound if its links, its registered names and the phases of its
classes are in order. `Advances` says what becomes of a sound store: it is
sound still, it keeps whatever `Keeps` keeps, and a class on which nothing is
pending is left exactly as it is. Entering names, putting a stand-in behind
a class, adding a method and completing a class all advance a store.
-/
import SymbolTable.Proofs.Lifecycle
import SymbolTable.Proofs.Links

namespace SymbolTable

namespace Store

variable {s s' s'' : Store} {root mc id : SymbolId}

/-- Links, registered names and phases are in order. -/
structure Sound (s : Store) (root mc : SymbolId) : Prop where
  linked : s.Linked root mc
  registered : s.Registered
  phased : s.Phased

/-- A class on which nothing is pending is left as it is. -/
def Spares (s s' : Store) : Prop :=
  ∀ x sym info, s.symbol? x = some sym → sym.body = .cls info → info.completer = none →
    s'.symbol? x = some sym

/-- `s'` is what operations made of `s`. -/
structure Advances (root mc : SymbolId) (s s' : Store) : Prop where
  keeps : s.Keeps s'
  spares : s.Spares s'
  sound : s'.Sound root mc

theorem Spares.trans (h : s.Spares s') (h' : s'.Spares s'') : s.Spares s'' :=
  fun x sym info hs hb hc => h' x sym info (h x sym info hs hb hc) hb hc

theorem Advances.trans (h : s.Advances root mc s') (h' : s'.Advances root mc s'') :
    s.Advances root mc s'' :=
  ⟨h.keeps.trans h'.keeps, h.spares.trans h'.spares, h'.sound⟩

theorem Sound.refl (h : s.Sound root mc) : s.Advances root mc s :=
  ⟨.refl s, fun _ _ _ hs _ _ => hs, h⟩

theorem Spares.symbol? (h : s.Spares s') {p : Phase} (hp : s.InPhase id p) (hne : p ≠ .lazy) :
    s'.symbol? id = s.symbol? id := by
  have hnone : s.completer? id = none := by
    rw [← Option.not_isSome_iff_eq_none, hp.completer?]
    exact hne
  obtain ⟨sym, info, hs, hb, -⟩ := hp
  have hc : info.completer = none := by
    simpa [completer?, classInfo?_eq_some.2 ⟨sym, hs, hb⟩] using hnone
  rw [h id sym info hs hb hc, hs]

theorem Spares.inPhase (h : s.Spares s') {p : Phase} (hp : s.InPhase id p) (hne : p ≠ .lazy) :
    s'.InPhase id p := by
  have hsame := h.symbol? hp hne
  obtain ⟨sym, info, hs, hp⟩ := hp
  exact ⟨sym, info, hsame.trans hs, hp⟩

/-! ## Entering names -/

theorem Sound.entering (h : s.Sound root mc) (he : s.Entering s') : s.Advances root mc s' where
  keeps := he.keeps
  spares x sym info hs hb _ := he.symbol? h.registered hs (by simp [hb])
  sound := ⟨h.linked.entering h.registered he, h.registered.entering he,
    h.phased.entering h.registered he⟩

/-! ## Standing in -/

theorem keeps_fallBack (s : Store) (id : SymbolId) (f : Completer) : s.Keeps (s.fallBack id f) := by
  unfold fallBack
  split
  · exact .refl s
  · exact s.keeps_setCompleter id _

theorem Linked.fallBack (h : s.Linked root mc) (id : SymbolId) {f : Completer}
    (hf : f.Linked s mc) : (s.fallBack id f).Linked root mc := by
  unfold Store.fallBack
  split
  · exact h
  · next base hbase =>
    obtain ⟨sym, info, hs, hb, hc⟩ := completer?_eq_some.1 hbase
    exact h.setCompleter id ⟨(h.symbols id sym hs).completer info base hb hc, hf⟩

theorem maps_fallBack (s : Store) (id : SymbolId) (f : Completer) :
    (s.fallBack id f).classes = s.classes ∧ (s.fallBack id f).packages = s.packages := by
  unfold fallBack
  split <;> exact ⟨rfl, rfl⟩

/-- A stand-in changes a class on which a completer is pending, if any. -/
theorem spares_fallBack (s : Store) (id : SymbolId) (f : Completer) : s.Spares (s.fallBack id f) := by
  intro x sym info hs hb hc
  unfold fallBack
  split
  · exact hs
  · next base hbase =>
    have hne : x ≠ id := by
      rintro rfl
      simp [completer?, classInfo?_eq_some.2 ⟨sym, hs, hb⟩, hc] at hbase
    rw [setCompleter, symbol?_update_other _ _ hne, hs]

theorem Sound.fallBack (h : s.Sound root mc) (id : SymbolId) {f : Completer} (hf : f.IsStandin)
    (hlinked : f.Linked s mc) : s.Advances root mc (s.fallBack id f) where
  keeps := s.keeps_fallBack id f
  spares := s.spares_fallBack id f
  sound := ⟨h.linked.fallBack id hlinked,
    h.registered.of_maps (s.keeps_fallBack id f) (s.maps_fallBack id f).1 (s.maps_fallBack id f).2,
    h.phased.fallBack id hf⟩

/-- A registered class declares its type. -/
theorem Sound.declaring? (h : s.Sound root mc) {flat : Name} (hc : s.class? flat = some id) :
    s.declaring? (s.typeOf id) = some id ∧ ∃ info, s.classInfo? id = some info := by
  obtain ⟨sym, info, hs, hb, -⟩ := h.registered.cls hc
  refine ⟨?_, info, classInfo?_eq_some.2 ⟨sym, hs, hb⟩⟩
  rw [typeOf_of_symbol? hs]
  refine (h.linked.symbols id sym hs).declared ?_
  cases he : info.erroneous <;> simp [Symbol.kind, SymbolBody.kind, hb, he]

/-! ## Adding -/

theorem spares_extend (s : Store) (t : Ty) (sym : Symbol) : s.Spares (s.extend t sym) :=
  fun _ _ _ hs _ _ => by rw [symbol?_extend_old (hasSymbol_of_symbol? hs), hs]

/-- A method that is nobody's member. -/
theorem Sound.addMethod (h : s.Sound root mc) {owner : SymbolId} (ho : s.HasSymbol owner)
    (hmc : s.HasSymbol mc) {g : Signature} (hg : ∀ ty ∈ g.types, s.HasType ty)
    (modifiers : Modifiers) (name : Name) :
    s.Advances root mc (s.addMethod modifiers name g owner mc).2 where
  keeps := s.keeps_extend _ _
  spares := s.spares_extend _ _
  sound := ⟨h.linked.addMethodLike ho hmc hg modifiers name (.inl rfl),
    h.registered.of_maps (s.keeps_extend _ _) rfl rfl,
    h.phased.extend h.registered _ (by simp)⟩

/-- A variable that is nobody's member. -/
theorem Sound.addVariable (h : s.Sound root mc) {owner : SymbolId} (ho : s.HasSymbol owner)
    {ty : TypeId} (hty : s.HasType ty) (modifiers : Modifiers) (name : Name) :
    s.Advances root mc (s.addVariable modifiers name ty owner).2 where
  keeps := s.keeps_addSymbol _
  spares x sym info hs _ _ := by
    rw [Store.addVariable, symbol?_addSymbol, if_neg (hasSymbol_of_symbol? hs).ne_next, hs]
  sound := ⟨h.linked.addVariable ho hty modifiers name,
    h.registered.of_maps (s.keeps_addSymbol _) rfl rfl,
    h.phased.of_same (fun _ hy => hy) rfl fun y _ => sameClass_addSymbol s (by simp) y⟩

/-- A complete class changes and stays complete. -/
theorem Sound.mapClass (h : s.Sound root mc) {f : ClassInfo → ClassInfo}
    (hnames : ∀ info, (f info).fullName = info.fullName ∧ (f info).flatName = info.flatName ∧
      (f info).erroneous = info.erroneous)
    (hf : ∀ info, info.Linked s mc id → (f info).Linked s mc id)
    (hid : (s.update id (Symbol.mapClass f)).InPhase id .completed) :
    (s.update id (Symbol.mapClass f)).Sound root mc where
  linked := h.linked.mapClass hnames hf
  registered := h.registered.of_maps (keeps_mapClass s id hnames) rfl rfl
  phased := h.phased.of_completed rfl (fun _ hy => sameClass_update s _ hy) hid

/-- A complete class gets a member. -/
theorem Sound.enterMember (h : s.Sound root mc) {x : SymbolId} (hid : s.InPhase id .completed)
    (hx : s.HasSymbol x) :
    (s.update id (Symbol.mapMembers fun scope => scope.enter (s.nameOf x) x)).Sound root mc where
  linked := h.linked.update (fun _ _ => Symbol.outline_mapMembers _ _) fun sym hs =>
    (h.linked.symbols id sym hs).mapMembers hx rfl
  registered := h.registered.of_maps (keeps_mapMembers s id _) rfl rfl
  phased := h.phased.of_completed rfl (fun _ hy => sameClass_update s _ hy) (hid.mapMembers _ x)

end Store

open Store

/-! ## Stand-ins of a table -/

namespace StandinContext

variable {ctx : StandinContext} {root mc : SymbolId}

/-- An interface's stand-in goes behind a class of the store, or nothing happens. -/
theorem standForInterface_cases (ctx : StandinContext) (ty : TypeId) (s : Store) :
    (∃ e, ctx.standForInterface ty s = .error e) ∨
      ∃ id, ctx.standForInterface ty s = .ok (id, s.fallBack id (.emptyInterface ctx.object)) := by
  unfold standForInterface
  split
  · next e _ => exact .inl ⟨e, rfl⟩
  · next id _ => exact .inr ⟨id, rfl⟩

/-- A wrapper's stand-in goes behind the wrapper class, which is entered first; or nothing
happens. -/
theorem standForBox_cases {w : World} (h : w.store.Sound root mc)
    (hobj : w.store.HasType ctx.object) (hmc : ctx.methodClass = mc) (ty : TypeId) :
    (∃ e, ctx.standForBox ClassPath.resolver ty w = (.error e, w)) ∨
      ∃ (id : SymbolId) (w₁ : World) (boxed : Name) (plan : BoxPlan),
        ctx.primitives.box? (((w.store.type? ty).map (·.tag)).getD .absent) = some boxed ∧
        w.store.Asked [.cls boxed] w₁.store ∧ (Completer.box plan).Linked w₁.store mc ∧
        ctx.standForBox ClassPath.resolver ty w =
          (.ok id, { w₁ with store := w₁.store.fallBack id (.box plan) }) := by
  unfold standForBox
  simp only
  split
  · next boxed declaring hboxed hd =>
    split
    · next hty =>
      have ha := ClassPath.askClass_asked boxed
        (w := w.see (w.store.nameOf declaring ++ unboxSuffix)) h.registered
      have hk := ha.entering.keeps
      have hprim : w.store.HasType ty := hasType_of_declaring? hd
      exact .inr ⟨_, _, boxed, ⟨ty, ctx.object, _, _, ctx.methodClass⟩, hboxed, ha,
        ⟨hk.hasType hprim, hk.hasType hobj, hmc⟩, rfl⟩
    · exact .inl ⟨_, rfl⟩
  · exact .inl ⟨_, rfl⟩

end StandinContext

/-! ## Completing -/

/-- Completing a class, whatever comes of it. -/
theorem World.complete_advances {w : World} {root mc : SymbolId} (h : w.store.Sound root mc)
    (hmc : w.store.HasSymbol mc) (id : SymbolId) :
    w.store.Advances root mc (w.complete ClassPath.resolver id).2.store := by
  cases hc : w.store.completer? id with
  | none =>
    rw [complete_of_done hc]
    exact h.refl
  | some c =>
    obtain ⟨flat, -, hr⟩ := h.phased.pending hc not_false
    obtain ⟨sym, info, hs, hb, hcompleter⟩ := completer?_eq_some.1 hc
    have hk := w.store.keeps_dropCompleter id
    have hdone := complete_completes h.registered hc hr
    have hreg := h.registered.of_maps hk rfl rfl
    have hlinked := ((h.linked.symbols id sym hs).completer info c hb hcompleter).mono hk
    refine ⟨hk.trans hdone.keeps, fun x sym' info' hs' hb' hnone => ?_, ?_, hdone.registered hreg,
      complete_phased h.registered h.phased id⟩
    · have hne : x ≠ id := by
        rintro rfl
        simp [completer?, classInfo?_eq_some.2 ⟨sym', hs', hb'⟩, hnone] at hc
      exact complete_symbol? h.registered h.phased hs' hb' hne
    · exact (h.linked.dropCompleter id).completes hreg (hk.hasSymbol (hasSymbol_of_symbol? hs))
        (hk.hasSymbol hmc) hlinked hdone

end SymbolTable
