/-
Traversing the types of a store that was put together by constructors.

A constructor that is given types of the store makes a type that comes after
them, so signatures nest without cycles, however deep. Every type then has a
finite tree, and visits and texts follow it. Whatever is done to the store
afterwards keeps the types, and the names of the symbols behind them, so a
text that can be written stays as it is.
-/
import SymbolTable.Proofs.Retention
import SymbolTable.Proofs.TypeTrees

namespace SymbolTable

namespace Store

variable {s s' : Store} {ty : TypeId} {tree : TypeTree}

/-! ## Constructing in order -/

def constructAll (s : Store) (cs : List Construct) : Store := cs.foldl construct s

/-- The constructors are given only types that exist by then. -/
def Feasible : Store → List Construct → Prop
  | _, [] => True
  | s, c :: cs =>
    (∀ g, c.signature? = some g → ∀ x ∈ g.types, s.HasType x) ∧ (s.construct c).Feasible cs

theorem signature?_addType (s : Store) (t : Ty) (ty : TypeId) : (s.addType t).2.signature? ty =
    if ty = s.nextType then t.form.signature? else s.signature? ty := by
  simp only [signature?_eq_form?, form?, type?_addType]
  split <;> rfl

theorem Nests.addType (h : s.Nests) {t : Ty}
    (known : ∀ g, t.form.signature? = some g → ∀ x ∈ g.types, s.HasType x) :
    (s.addType t).2.Nests := by
  intro ty g hg x hx
  rw [signature?_addType] at hg
  split at hg
  · next hty => exact hty ▸ known g hg x hx
  · exact h ty g hg x hx

theorem Nests.construct (h : s.Nests) {c : Construct}
    (known : ∀ g, c.signature? = some g → ∀ x ∈ g.types, s.HasType x) : (s.construct c).Nests := by
  generalize hs : s.construct c = s'
  cases hs ▸ s.constructs c with
  | type signature => exact h.addType fun g hg => known g (signature ▸ hg)
  | symbol _ => exact h
  | @both t _ signature =>
    have ht : (s.addType t).2.Nests := h.addType fun g hg => known g (signature ▸ hg)
    exact ht

theorem Nests.constructAll (h : s.Nests) {cs : List Construct} (hcs : s.Feasible cs) :
    (s.constructAll cs).Nests := by
  induction cs generalizing s with
  | nil => exact h
  | cons c cs ih => exact ih (h.construct hcs.1) hcs.2

theorem empty_nests : empty.Nests := by
  rintro ⟨i⟩ g hg
  cases i with
  | zero => cases hg
  | succ i => simp [signature?, type?, empty] at hg

/-! ## Traversing -/

theorem Nests.wellFounded (h : s.Nests) : WellFounded fun x ty => s.Mentions ty x :=
  Subrelation.wf (fun {_ _} hm => h.mentions hm) (measure TypeId.index).wf

/-- What visiting and writing a type come to, the tree being the one below it. -/
structure Traversed (s : Store) (tree : TypeTree) : Prop where
  unfolds : s.Unfolds tree
  unique : ∀ tree', s.Unfolds tree' → tree'.root = tree.root → tree' = tree
  /-- A visit is the plain recursion on the tree. -/
  visit : ∀ {σ α : Type} (v : Visitor σ α), v.visit s tree.root = v.follow s tree
  /-- A visitor that does nothing of its own at method types reports the types in postorder. -/
  reports : ∀ {σ α : Type} (v : Visitor σ α), (v.method = fun _ _ => v.other) → ∀ st,
    v.visit s tree.root st = v.report s tree.root (v.reportAll s tree.postorder.dropLast st)
  leaves : tree.leaves = tree.postorder.filter fun x => (s.signature? x).isNone
  text : s.typeText tree.root = tree.text s.leafText

theorem Unfolds.traversed (h : s.Unfolds tree) (hd : tree.height ≤ tree.root.index) :
    s.Traversed tree where
  unfolds := h
  unique _ h' hroot := h.unique h' hroot
  visit v := v.visit_eq_follow h hd
  reports v hv st := by rw [v.visit_eq_follow h hd, Visitor.follow_eq hv h]
  leaves := h.leaves_eq
  text := typeText_eq_text h hd

theorem Nests.exists_traversed (h : s.Nests) (ty : TypeId) :
    ∃ tree : TypeTree, tree.root = ty ∧ s.Traversed tree := by
  obtain ⟨tree, rfl, hu, hd⟩ := h.exists_unfolds ty
  exact ⟨tree, rfl, hu.traversed hd⟩

/-! ## Texts stay -/

/-- The symbols that declare the types that a type is written with are there. -/
def Nameable (s : Store) (ty : TypeId) : Prop :=
  ∀ x d, Relation.ReflTransGen s.Mentions ty x → s.signature? x = none → s.declaring? x = some d →
    s.HasSymbol d

theorem Retains.nameBehind? (h : s.Retains s') (hty : s.HasType ty)
    (hd : ∀ d, s.declaring? ty = some d → s.HasSymbol d) : s'.nameBehind? ty = s.nameBehind? ty := by
  have hsame : s'.declaring? ty = s.declaring? ty := by rw [declaring?, h.types hty, declaring?]
  rw [Store.nameBehind?, hsame, Store.nameBehind?]
  cases hdeclaring : s.declaring? ty with
  | none => rfl
  | some d =>
    obtain ⟨sym, hs⟩ := (hd d hdeclaring).symbol?
    obtain ⟨sym', hs', ho⟩ := h.symbol? hs
    simp only [Option.bind_some, hs, hs', Option.map_some, Symbol.qualifiedName_of_outline ho]

theorem Retains.agreesOn (h : s.Retains s') (hn : s.Nests) (hty : s.HasType ty)
    (hnamed : s.Nameable ty) : s.AgreesOn s' ty := by
  intro x hx
  have hxty := hn.hasType_of_reaches hty hx
  refine ⟨?_, fun hplain => h.nameBehind? hxty fun d hd => hnamed x d hx hplain hd⟩
  rw [form?, h.types hxty, form?]

end Store

open Store

/-- Of a store that was put together by constructors, each given only types that existed: a method
type mentions only types before it, so every traversal ends. A type has one finite tree, which
visits follow: leaves from left to right, parameters before the result, a method type after what is
below it, nothing thrown. Its text is made of the types in the tree and the names behind the leaves,
and nothing that is done afterwards changes it. -/
theorem Store.traversal_of_constructed {cs : List Construct} (hcs : Store.empty.Feasible cs) :
    (Store.empty.constructAll cs).Nests ∧
      (WellFounded fun x ty => (Store.empty.constructAll cs).Mentions ty x) ∧
      (∀ ty, ∃ tree : TypeTree, tree.root = ty ∧ (Store.empty.constructAll cs).Traversed tree) ∧
      (∀ ty s', (Store.empty.constructAll cs).AgreesOn s' ty →
        s'.typeText ty = (Store.empty.constructAll cs).typeText ty) ∧
      ∀ (w : World) (as : List Act) ty, w.store = Store.empty.constructAll cs →
        w.store.HasType ty → w.store.Nameable ty →
          (w.acts as).store.typeText ty = w.store.typeText ty := by
  have hn : (Store.empty.constructAll cs).Nests := empty_nests.constructAll hcs
  refine ⟨hn, hn.wellFounded, hn.exists_traversed, fun ty s' => hn.typeText_eq, ?_⟩
  intro w as ty hw hty hnamed
  rw [← hw] at hn
  exact hn.typeText_eq ((w.retains_acts as).agreesOn hn hty hnamed)

/-- A class, a method type, and a method type that takes the first one twice. -/
def Construct.nestedSignatures : List Construct :=
  [.primitive .int, .cls .empty "C" "p.C" "p.C" ⟨0⟩,
    .methodType ⟨[⟨1⟩, ⟨2⟩], ⟨1⟩, [⟨2⟩]⟩ ⟨0⟩, .methodType ⟨[⟨3⟩, ⟨1⟩, ⟨3⟩], ⟨2⟩, [⟨3⟩]⟩ ⟨0⟩]

/-- A signature that takes methods is written the same whatever is done after it was made. -/
theorem Store.traversal_of_nested_signatures :
    Store.empty.Feasible Construct.nestedSignatures ∧
      ∀ as, (({ World.empty with store := Store.empty.constructAll Construct.nestedSignatures }).acts
        as).store.typeText ⟨4⟩ = "((int,p.C)int,int,(int,p.C)int)p.C" := by
  have hcs : Store.empty.Feasible Construct.nestedSignatures := by
    refine ⟨by simp [Construct.signature?], by simp [Construct.signature?], ?_, ?_, trivial⟩
    all_goals
      rintro g ⟨⟩
      decide
  obtain ⟨hn, -, -, -, hstays⟩ := Store.traversal_of_constructed hcs
  refine ⟨hcs, fun as => (hstays _ as ⟨4⟩ rfl (by decide) fun x d hx _ hd => ?_).trans rfl⟩
  -- the class declares every type that a symbol declares at all
  have hdeclared : ∀ i < 5, (Store.empty.constructAll Construct.nestedSignatures).declaring? ⟨i⟩ ∈
      [none, some ⟨0⟩] := by decide
  have hx : x.index < 5 := hn.hasType_of_reaches (by decide) hx
  obtain rfl : d = ⟨0⟩ := by simpa [hd] using hdeclared x.index hx
  decide

end SymbolTable
