/-
Resolving names in any order.

A request enters its name and whatever encloses it, as far as that is
missing, and answers with what is registered under the name from then on.
So the registered names do not depend on the order of the requests, nor does
what can be read off them: the names and the owner of a symbol are those that
its key gives, and its modifiers are none if it was entered by a request.
-/
import SymbolTable.Proofs.Registry

namespace SymbolTable

theorem Symbol.modifiers_mapMembers (f : Scope → Scope) (sym : Symbol) :
    (sym.mapMembers f).modifiers = sym.modifiers := by
  unfold mapMembers
  split <;> rfl

namespace Store

variable {s s' : Store} {id : SymbolId} {r : Request}

/-! ## Modifiers -/

def modifiersOf? (s : Store) (id : SymbolId) : Option Modifiers := (s.symbol? id).map (·.modifiers)

theorem Enters.modifiersOf? (he : Enters s s') (id : SymbolId) :
    s'.modifiersOf? id = if id = s.nextSymbol then some .empty else s.modifiersOf? id := by
  have hclass : ∀ simple flat owner, (s.withClass simple flat owner).modifiersOf? id =
      if id = s.nextSymbol then some .empty else s.modifiersOf? id := by
    intro simple flat owner
    rw [Store.modifiersOf?, symbol?_withClass]
    split <;> rfl
  cases he with
  | package _ _ _ =>
    rw [Store.modifiersOf?, symbol?_withPackage]
    split <;> rfl
  | @top flat owner _ _ _ =>
    rw [← hclass (flat.lastPart '.') flat owner, Store.modifiersOf?, symbol?_withTopClass]
    split
    · simp [Store.modifiersOf?, Function.comp_def, Symbol.modifiers_mapMembers]
    · rfl
  | nested _ _ _ => exact hclass _ _ _

theorem Entering.modifiersOf? (he : Entering s s') (h : s.Registered)
    (hr : s'.lookup? r = some id) :
    s'.modifiersOf? id = (s.lookup? r).elim (some .empty) s.modifiersOf? := by
  induction he with
  | refl =>
    rw [hr]
    rfl
  | @tail s₁ s₂ hpath hstep ih =>
    have h₁ := h.entering hpath
    obtain ⟨q, -, fresh, hlookup, -⟩ := hstep.entry h₁
    rw [hlookup] at hr
    split at hr
    · next hq =>
      have hnone : s.lookup? r = none := by
        rw [← Option.not_isSome_iff_eq_none]
        intro hsome
        have hsome₁ := (Entering.keeps hpath).isSome_lookup? hsome
        simp [hq, fresh] at hsome₁
      rw [hstep.modifiersOf?, if_pos (Option.some.inj hr).symm, hnone]
      rfl
    · rw [hstep.modifiersOf?, if_neg (h₁.hasSymbol_lookup? hr).ne_next]
      exact ih hr

/-- The same names are registered, for symbols that do not differ in their names, their owners'
names and their modifiers. -/
structure SameRegistry (s s' : Store) : Prop extends s.SameExtent s' where
  cards : ∀ r, (s.lookup? r).bind s.card? = (s'.lookup? r).bind s'.card?
  modifiers : ∀ r, (s.lookup? r).bind s.modifiersOf? = (s'.lookup? r).bind s'.modifiersOf?

/-- The order of the requests does not matter to what is registered. -/
theorem Asked.sameRegistry {s₁ s₂ : Store} {predef : SymbolId} {rs rs' : List Request}
    (h₁ : s.Asked rs s₁) (h₂ : s.Asked rs' s₂) (h : s.Filed predef) (hp : rs.Perm rs') :
    s₁.SameRegistry s₂ := by
  have hgrown₁ := Grows.refl.ask h₁
  have hgrown₂ := Grows.refl.ask h₂
  have hlog : ([] ++ rs.map Change.request).Perm ([] ++ rs'.map Change.request) := hp.map _
  have hnames := hgrown₁.isSome_lookup?_congr hgrown₂ h hlog
  -- what is read off a name that both have is the same, whatever the symbols are
  have hread : ∀ {α : Type} (f f' : SymbolId → Option α) (r : Request), (∀ id id',
      s₁.lookup? r = some id → s₂.lookup? r = some id' → f id = f' id') →
      (s₁.lookup? r).bind f = (s₂.lookup? r).bind f' := by
    intro α f f' r hf
    have hr := hnames r
    cases hid : s₁.lookup? r <;> cases hid' : s₂.lookup? r <;> simp_all
  refine ⟨hgrown₁.sameExtent hgrown₂ h hlog, fun r => hread _ _ r fun id id' hid hid' => ?_,
    fun r => hread _ _ r fun id id' hid hid' => ?_⟩
  · rw [(h.entering h₁.entering).card? hid, (h.entering h₂.entering).card? hid']
  · rw [h₁.entering.modifiersOf? h.registered hid, h₂.entering.modifiersOf? h.registered hid']

end Store

namespace Session

variable {st : Session}

/-! ## Requests -/

def Op.ofRequest : Request → Op
  | .cls flat => .resolveClass flat
  | .package full => .resolvePackage full

def askAll (st : Session) (rs : List Request) : Session := st.run (rs.map .ofRequest)

def answer (st : Session) : Request → SymbolId
  | .cls flat => (ClassPath.resolver.askClass flat (st.world.see flat)).1
  | .package full => (ClassPath.resolver.askPackage full (st.world.see full)).1

def answers : Session → List Request → List SymbolId
  | _, [] => []
  | st, r :: rs => st.answer r :: (st.step (.ofRequest r)).answers rs

/-- A request enters what it asks for, and answers with that. -/
theorem Sound.asked_step (h : st.Sound) (r : Request) :
    st.store.Asked [r] (st.step (.ofRequest r)).store ∧
      (st.step (.ofRequest r)).store.lookup? r = some (st.answer r) := by
  cases r with
  | cls flat =>
    have hreg : (st.world.see flat).store.Registered := h.store.registered
    exact ⟨ClassPath.askClass_asked flat hreg, (ClassPath.askClass_entered flat hreg).found⟩
  | package full =>
    have hreg : (st.world.see full).store.Registered := h.store.registered
    exact ⟨ClassPath.askPackage_asked full hreg, (ClassPath.askPackage_entered full hreg).found⟩

theorem Sound.asked_run (h : st.Sound) (rs : List Request) :
    st.store.Asked rs (st.askAll rs).store := by
  induction rs generalizing st with
  | nil => exact .nil _
  | cons r rs ih => exact (h.asked_step r).1.append (ih (h.step _))

/-- Each request answers with what is registered under its name in the end. -/
theorem Sound.answers_eq (h : st.Sound) (rs : List Request) :
    (st.answers rs).map some = rs.map (st.askAll rs).store.lookup? := by
  induction rs generalizing st with
  | nil => rfl
  | cons r rs ih =>
    have hkept := ((h.step (.ofRequest r)).asked_run rs).entering.keeps.lookup? (h.asked_step r).2
    rw [answers, List.map_cons, List.map_cons, ih (h.step _), ← hkept]
    rfl

/-- Names may be asked for in any order, and whoever asks again gets the same answer. -/
theorem Reachable.requests_commute (h : st.Reachable) {rs rs' : List Request} (hp : rs.Perm rs') :
    (st.askAll rs).store.SameRegistry (st.askAll rs').store ∧
      ∀ (i j : Nat) r, rs[i]? = some r → rs[j]? = some r →
        ∃ id, (st.answers rs)[i]? = some id ∧ (st.answers rs)[j]? = some id := by
  refine ⟨(h.sound.asked_run rs).sameRegistry (h.sound.asked_run rs') h.filed hp,
    fun i j r hi hj => ?_⟩
  obtain ⟨id, hid⟩ := Option.isSome_iff_exists.1
    ((h.sound.asked_run rs).found r (List.mem_of_getElem? hi))
  have hanswer : ∀ n : Nat, rs[n]? = some r → (st.answers rs)[n]? = some id := by
    intro n hn
    have heq := congrArg (fun l : List (Option SymbolId) => l[n]?) (h.sound.answers_eq rs)
    simpa [hn, hid] using heq
  exact ⟨id, hanswer i hi, hanswer j hj⟩

/-- A nested class before and after the classes and packages around it, and once more. -/
theorem requests_commute_nested : ∃ (t : Table) (w : World),
    Table.build .default Messages.english ClassPath.resolver .empty = (.ok t, w) ∧
      let st := (Session.mk t w).run [.resolveClass "q.A", .complete ⟨40⟩]
      let rs := [.cls "p.q.Outer$Inner", .package "p", .cls "$X", .cls "p.q.Outer$Inner"]
      let rs' := [.package "p", .cls "p.q.Outer$Inner", .cls "p.q.Outer$Inner", .cls "$X"]
      st.Reachable ∧ rs.Perm rs' ∧ (st.askAll rs).store.SameRegistry (st.askAll rs').store ∧
        ∃ id, (st.answers rs)[0]? = some id ∧ (st.answers rs)[3]? = some id := by
  obtain ⟨t, w, hbuild, -⟩ := Table.building_ensures .default Messages.english .empty
  have hreach := (Reachable.built hbuild).run [.resolveClass "q.A", .complete ⟨40⟩]
  have hp : [Request.cls "p.q.Outer$Inner", .package "p", .cls "$X", .cls "p.q.Outer$Inner"].Perm
      [.package "p", .cls "p.q.Outer$Inner", .cls "p.q.Outer$Inner", .cls "$X"] := by decide
  obtain ⟨hsame, hrepeated⟩ := hreach.requests_commute hp
  exact ⟨t, w, hbuild, hreach, hp, hsame, hrepeated 0 3 (.cls "p.q.Outer$Inner") rfl rfl⟩

end Session

end SymbolTable
