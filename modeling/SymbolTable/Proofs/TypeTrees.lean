/-
Signatures as trees.

A traversal goes from a method type to its parameters and its result, and
from there on. What it comes to is a tree, and what it does is said by
recursion on that tree (`follow`): there is no depth to run out of. The
visits of a type and the text of a type are read off its tree, as long as
the tree is no higher than the identity of the type.
-/
import Mathlib.Logic.Relation
import Mathlib.Tactic.Choose
import SymbolTable.Proofs.Links
import SymbolTable.TypeText

namespace SymbolTable

/-- The types below a type: a method type has its parameters and its result below it. -/
inductive TypeTree where
  | leaf (ty : TypeId)
  | method (ty : TypeId) (params : List TypeTree) (result : TypeTree)

namespace TypeTree

/-- What holds of a tree if it holds of the trees below it holds of every tree. -/
@[induction_eliminator]
theorem ind {P : TypeTree → Prop} (leaf : ∀ ty, P (.leaf ty))
    (method : ∀ ty params result, (∀ t ∈ params, P t) → P result → P (.method ty params result)) :
    ∀ t, P t
  | .leaf ty => leaf ty
  | .method ty params result =>
    method ty params result (fun t _ => ind leaf method t) (ind leaf method result)

/-- The type that the tree is below. -/
def root : TypeTree → TypeId
  | leaf ty => ty
  | method ty _ _ => ty

mutual

/-- The types of the tree from left to right, a method type after those below it. -/
def postorder : TypeTree → List TypeId
  | leaf ty => [ty]
  | method ty params result => postorders params ++ postorder result ++ [ty]

def postorders : List TypeTree → List TypeId
  | [] => []
  | t :: ts => postorder t ++ postorders ts

end

mutual

/-- The types of the tree that nothing is below, from left to right. -/
def leaves : TypeTree → List TypeId
  | leaf ty => [ty]
  | method _ params result => leavesOf params ++ leaves result

def leavesOf : List TypeTree → List TypeId
  | [] => []
  | t :: ts => leaves t ++ leavesOf ts

end

mutual

/-- How many method types are above one another. -/
def height : TypeTree → Nat
  | leaf _ => 0
  | method _ params result => max (heights params) (height result) + 1

def heights : List TypeTree → Nat
  | [] => 0
  | t :: ts => max (height t) (heights ts)

end

mutual

/-- The tree written out, given the texts of the leaves. -/
def text (write : TypeId → String) : TypeTree → String
  | leaf ty => write ty
  | method _ params result =>
    "(" ++ ",".intercalate (texts write params) ++ ")" ++ text write result

def texts (write : TypeId → String) : List TypeTree → List String
  | [] => []
  | t :: ts => text write t :: texts write ts

end

theorem postorders_eq (ts : List TypeTree) : postorders ts = ts.flatMap postorder := by
  induction ts with
  | nil => rfl
  | cons t ts ih => rw [postorders, ih, List.flatMap_cons]

theorem leavesOf_eq (ts : List TypeTree) : leavesOf ts = ts.flatMap leaves := by
  induction ts with
  | nil => rfl
  | cons t ts ih => rw [leavesOf, ih, List.flatMap_cons]

theorem texts_eq (write : TypeId → String) (ts : List TypeTree) :
    texts write ts = ts.map (text write) := by
  induction ts with
  | nil => rfl
  | cons t ts ih => rw [texts, ih, List.map_cons]

theorem heights_lt_iff {ts : List TypeTree} {n : Nat} :
    heights ts < n ↔ 0 < n ∧ ∀ t ∈ ts, t.height < n := by
  induction ts with
  | nil => simp [heights]
  | cons t ts ih => grind [heights]

theorem text_congr {f g : TypeId → String} {t : TypeTree} (h : ∀ x ∈ t.leaves, f x = g x) :
    t.text f = t.text g := by
  induction t with
  | leaf ty => exact h ty (by simp [leaves])
  | method ty params result ihp ihr =>
    simp only [leaves, leavesOf_eq, List.mem_append, List.mem_flatMap] at h
    have hparams : params.map (text f) = params.map (text g) :=
      List.map_congr_left fun t ht => ihp t ht fun x hx => h x (.inl ⟨t, ht, hx⟩)
    rw [text, text, texts_eq, texts_eq, hparams, ihr fun x hx => h x (.inr hx)]

end TypeTree

namespace Store

variable {s s' : Store} {ty : TypeId} {tree : TypeTree}

/-- The tree is the one below its root: each method type has the trees of its parameters and of its
result below it. -/
inductive Unfolds (s : Store) : TypeTree → Prop
  | leaf {ty : TypeId} (plain : s.signature? ty = none) : Unfolds s (.leaf ty)
  | method {ty : TypeId} {params : List TypeTree} {result : TypeTree} {thrown : List TypeId}
      (signature : s.signature? ty = some ⟨params.map (·.root), result.root, thrown⟩)
      (below : ∀ t ∈ params, Unfolds s t) (last : Unfolds s result) :
      Unfolds s (.method ty params result)

/-- A method type mentions only types that came before it. -/
def Nests (s : Store) : Prop :=
  ∀ ty g, s.signature? ty = some g → ∀ x ∈ g.types, x.index < ty.index

/-- A traversal goes from a type to this one next. -/
def Mentions (s : Store) (ty x : TypeId) : Prop :=
  ∃ g, s.signature? ty = some g ∧ (x ∈ g.params ∨ x = g.result)

theorem Nests.mentions (h : s.Nests) {x : TypeId} (hm : s.Mentions ty x) : x.index < ty.index := by
  obtain ⟨g, hg, hx | rfl⟩ := hm
  · exact h ty g hg x (List.mem_append_left _ hx)
  · exact h ty g hg _ (List.mem_append_right _ List.mem_cons_self)

/-- Every type has a tree, no higher than the types before it are many. -/
theorem Nests.exists_unfolds (h : s.Nests) (ty : TypeId) :
    ∃ tree, tree.root = ty ∧ s.Unfolds tree ∧ tree.height ≤ ty.index := by
  obtain ⟨i⟩ := ty
  induction i using Nat.strongRecOn with
  | _ i ih =>
    cases hg : s.signature? ⟨i⟩ with
    | none => exact ⟨.leaf ⟨i⟩, rfl, .leaf hg, Nat.zero_le _⟩
    | some g =>
      have below : ∀ x ∈ g.types,
          ∃ tree : TypeTree, tree.root = x ∧ s.Unfolds tree ∧ tree.height < i := by
        intro x hx
        have hlt : x.index < i := h _ g hg x hx
        obtain ⟨tree, hroot, hu, hheight⟩ := ih x.index hlt
        exact ⟨tree, hroot, hu, Nat.lt_of_le_of_lt hheight hlt⟩
      obtain ⟨result, hroot, hresult, hheight⟩ :=
        below g.result (List.mem_append_right _ List.mem_cons_self)
      have : Nonempty TypeTree := ⟨result⟩
      choose! tree hroots hunfolds hlower using fun x hx => below x (List.mem_append_left _ hx)
      have hparams : (g.params.map tree).map (·.root) = g.params := by
        rw [List.map_map]
        exact (List.map_congr_left hroots).trans (List.map_id _)
      have hsig : s.signature? ⟨i⟩ =
          some ⟨(g.params.map tree).map (·.root), result.root, g.thrown⟩ := by
        rw [hg, hparams, hroot]
      have hheights : TypeTree.heights (g.params.map tree) < i :=
        TypeTree.heights_lt_iff.2 ⟨Nat.lt_of_le_of_lt (Nat.zero_le _) hheight,
          List.forall_mem_map.2 hlower⟩
      refine ⟨.method ⟨i⟩ _ result, rfl, .method hsig (List.forall_mem_map.2 hunfolds) hresult, ?_⟩
      simp only [TypeTree.height]
      omega

theorem eq_of_map_eq {α β : Type} {f : α → β} {l l' : List α} (hmap : l'.map f = l.map f)
    (h : ∀ a ∈ l, ∀ a' ∈ l', f a' = f a → a' = a) : l' = l := by
  induction l generalizing l' with
  | nil => simpa using hmap
  | cons a l ih =>
    cases l' with
    | nil => simp at hmap
    | cons a' l' =>
      simp only [List.map_cons, List.cons.injEq] at hmap
      rw [h a List.mem_cons_self a' List.mem_cons_self hmap.1,
        ih hmap.2 fun b hb b' hb' => h b (List.mem_cons_of_mem a hb) b' (List.mem_cons_of_mem a' hb')]

/-- A type has one tree. -/
theorem Unfolds.unique (h : s.Unfolds tree) {tree' : TypeTree} (h' : s.Unfolds tree')
    (hroot : tree'.root = tree.root) : tree' = tree := by
  induction h generalizing tree' with
  | leaf plain =>
    cases h' with
    | leaf _ => exact congrArg TypeTree.leaf hroot
    | method signature _ _ =>
      obtain rfl : _ = _ := hroot
      exact absurd (plain.symm.trans signature) (by simp)
  | @method ty params result thrown signature _ _ ihp ihr =>
    cases h' with
    | leaf plain =>
      obtain rfl : _ = ty := hroot
      exact absurd (plain.symm.trans signature) (by simp)
    | @method ty' params' result' thrown' signature' below' last' =>
      obtain rfl : ty' = ty := hroot
      have hsig := Option.some.inj (signature'.symm.trans signature)
      simp only [Signature.mk.injEq] at hsig
      obtain ⟨hparams, hresult, -⟩ := hsig
      have hsame : params' = params :=
        eq_of_map_eq hparams fun t ht t' ht' => ihp t ht (below' t' ht')
      rw [hsame, ihr last' hresult]

/-- Every type of a tree is one that a traversal from the root comes to. -/
theorem Unfolds.reaches (h : s.Unfolds tree) {x : TypeId} (hx : x ∈ tree.postorder) :
    Relation.ReflTransGen s.Mentions tree.root x := by
  induction h with
  | leaf _ =>
    obtain rfl : x = _ := by simpa [TypeTree.postorder] using hx
    exact .refl
  | @method ty params result thrown signature _ _ ihp ihr =>
    simp only [TypeTree.postorder, TypeTree.postorders_eq, List.mem_append, List.mem_flatMap,
      List.mem_singleton] at hx
    rcases hx with (⟨t, ht, hx⟩ | hx) | rfl
    · exact .head ⟨_, signature, .inl (List.mem_map_of_mem ht)⟩ (ihp t ht hx)
    · exact .head ⟨_, signature, .inr rfl⟩ (ihr hx)
    · exact .refl

/-- The tree depends on the forms of its types only. -/
theorem Unfolds.congr (h : s.Unfolds tree) (hform : ∀ x ∈ tree.postorder, s'.form? x = s.form? x) :
    s'.Unfolds tree := by
  have hsame : ∀ x ∈ tree.postorder, s'.signature? x = s.signature? x := fun x hx =>
    signature?_of_form? (hform x hx)
  clear hform
  induction h with
  | leaf plain => exact .leaf ((hsame _ (by simp [TypeTree.postorder])).trans plain)
  | @method ty params result thrown signature _ _ ihp ihr =>
    simp only [TypeTree.postorder, TypeTree.postorders_eq, List.mem_append, List.mem_flatMap,
      List.mem_singleton] at hsame
    refine .method ((hsame ty (.inr rfl)).trans signature) (fun t ht => ?_) ?_
    · exact ihp t ht fun x hx => hsame x (.inl (.inl ⟨t, ht, hx⟩))
    · exact ihr fun x hx => hsame x (.inl (.inr hx))

/-- The leaves are the types of the tree that have no signature, in the same order. -/
theorem Unfolds.leaves_eq (h : s.Unfolds tree) :
    tree.leaves = tree.postorder.filter fun x => (s.signature? x).isNone := by
  induction h with
  | leaf plain => simp [TypeTree.leaves, TypeTree.postorder, plain]
  | @method ty params result thrown signature _ _ ihp ihr =>
    have hparams : params.flatMap (·.leaves) =
        params.flatMap fun t => t.postorder.filter fun x => (s.signature? x).isNone :=
      List.flatMap_congr ihp
    simp only [TypeTree.leaves, TypeTree.postorder, TypeTree.leavesOf_eq, TypeTree.postorders_eq,
      List.filter_append, List.filter_flatMap, hparams, ihr]
    simp [signature]

end Store

/-! ## Visiting along the tree -/

namespace Visitor

variable {σ α : Type} {s : Store} {tree : TypeTree} {depth : Nat}

/-- What a visitor does at one type, going no further. -/
def report (v : Visitor σ α) (s : Store) (ty : TypeId) : σ → α × σ :=
  match s.type? ty with
  | none => v.other ty
  | some t =>
    match t.tag, t.form with
    | .unknown, _ => v.unknown ty
    | .error, _ => v.error ty
    | _, .method _ => v.other ty
    | _, .cls => v.cls ty
    | _, .package => v.package ty
    | _, .absent => v.absent ty
    | tag, _ => v.primitive tag ty

mutual

/-- The plain recursion of a visit, on the tree. -/
def follow (v : Visitor σ α) (s : Store) : TypeTree → σ → α × σ
  | .leaf ty => v.report s ty
  | .method ty params result => fun st =>
    let (as, st) := followAll v s params st
    let (a, st) := follow v s result st
    v.method as a ty st

def followAll (v : Visitor σ α) (s : Store) : List TypeTree → σ → List α × σ
  | [] => fun st => ([], st)
  | t :: ts => fun st =>
    let (a, st) := follow v s t st
    let (as, st) := followAll v s ts st
    (a :: as, st)

end

theorem visitWithin_leaf (v : Visitor σ α) {ty : TypeId} (h : s.signature? ty = none) (depth : Nat) :
    v.visitWithin s (depth + 1) ty = v.report s ty := by
  funext st
  simp only [Store.signature?] at h
  simp only [visitWithin, report]
  cases ht : s.type? ty with
  | none => rfl
  | some t =>
    obtain ⟨form, d⟩ := t
    cases form with
    | method g => simp [ht] at h
    | primitive tag => cases tag <;> rfl
    | _ => rfl

theorem visitWithin_method (v : Visitor σ α) {ty : TypeId} {g : Signature}
    (h : s.signature? ty = some g) (depth : Nat) (st : σ) :
    v.visitWithin s (depth + 1) ty st =
      let (as, st) := visitAll (v.visitWithin s depth) g.params st
      let (a, st) := v.visitWithin s depth g.result st
      v.method as a ty st := by
  unfold Store.signature? at h
  split at h
  · next d ht =>
    obtain rfl := Option.some.inj h
    rw [visitWithin]
    simp only [ht]
    rfl
  · cases h

theorem visitAll_eq_followAll {v : Visitor σ α} {visit : TypeId → σ → α × σ} {ts : List TypeTree}
    (h : ∀ t ∈ ts, visit t.root = v.follow s t) :
    visitAll visit (ts.map (·.root)) = v.followAll s ts := by
  funext st
  induction ts generalizing st with
  | nil => rfl
  | cons t ts ih =>
    simp only [List.map_cons, visitAll, followAll, h t List.mem_cons_self,
      ih fun t' ht' => h t' (List.mem_cons_of_mem t ht')]

/-- A visit that is allowed to go deeper than the tree is high follows the tree. -/
theorem visitWithin_eq_follow (v : Visitor σ α) (h : s.Unfolds tree) (hd : tree.height < depth) :
    v.visitWithin s depth tree.root = v.follow s tree := by
  induction h generalizing depth with
  | leaf plain =>
    obtain _ | depth := depth
    · exact absurd hd (Nat.not_lt_zero _)
    · exact v.visitWithin_leaf plain depth
  | @method ty params result thrown signature _ _ ihp ihr =>
    obtain _ | depth := depth
    · exact absurd hd (Nat.not_lt_zero _)
    simp only [TypeTree.height] at hd
    have hheights : TypeTree.heights params < depth := by omega
    have hparams := visitAll_eq_followAll fun t ht =>
      ihp t ht ((TypeTree.heights_lt_iff.1 hheights).2 t ht)
    have hresult : v.visitWithin s depth result.root = v.follow s result := ihr (by omega)
    funext st
    rw [TypeTree.root, v.visitWithin_method signature, hparams, hresult, follow]

theorem visit_eq_follow (v : Visitor σ α) (h : s.Unfolds tree) (hd : tree.height ≤ tree.root.index) :
    v.visit s tree.root = v.follow s tree :=
  v.visitWithin_eq_follow h (Nat.lt_succ_of_le hd)

/-! ## Reporting -/

theorem report_method (v : Visitor σ α) {ty : TypeId} {g : Signature} (h : s.signature? ty = some g) :
    v.report s ty = v.other ty := by
  unfold Store.signature? at h
  split at h
  · next d ht =>
    rw [report]
    simp only [ht]
    rfl
  · cases h

/-- The state of a visitor after it reports types one after another. -/
def reportAll (v : Visitor σ α) (s : Store) (tys : List TypeId) (st : σ) : σ :=
  tys.foldl (fun st ty => (v.report s ty st).2) st

theorem reportAll_append (v : Visitor σ α) (s : Store) (tys tys' : List TypeId) (st : σ) :
    v.reportAll s (tys ++ tys') st = v.reportAll s tys' (v.reportAll s tys st) :=
  List.foldl_append

theorem reportAll_singleton (v : Visitor σ α) (s : Store) (ty : TypeId) (st : σ) :
    v.reportAll s [ty] st = (v.report s ty st).2 := rfl

theorem followAll_reports {v : Visitor σ α} {ts : List TypeTree}
    (h : ∀ t ∈ ts, ∀ st, (v.follow s t st).2 = v.reportAll s t.postorder st) (st : σ) :
    (v.followAll s ts st).2 = v.reportAll s (TypeTree.postorders ts) st := by
  induction ts generalizing st with
  | nil => rfl
  | cons t ts ih =>
    simp only [followAll, TypeTree.postorders, reportAll_append]
    rw [ih fun t' ht' => h t' (List.mem_cons_of_mem t ht'), h t List.mem_cons_self]

/-- A visitor that does nothing of its own at method types reports the types of the tree in order. -/
theorem follow_reports {v : Visitor σ α} (hv : v.method = fun _ _ => v.other) (h : s.Unfolds tree)
    (st : σ) : (v.follow s tree st).2 = v.reportAll s tree.postorder st := by
  induction h generalizing st with
  | leaf _ => rfl
  | @method ty params result thrown signature _ _ ihp ihr =>
    simp only [follow, hv, TypeTree.postorder, reportAll_append, followAll_reports ihp, ihr]
    rw [reportAll_singleton, v.report_method signature]

/-- What comes of the visit is what the report of the root gives, after all the others. -/
theorem follow_eq {v : Visitor σ α} (hv : v.method = fun _ _ => v.other) (h : s.Unfolds tree)
    (st : σ) :
    v.follow s tree st = v.report s tree.root (v.reportAll s tree.postorder.dropLast st) := by
  cases h with
  | leaf _ => rfl
  | @method ty params result thrown signature below last =>
    simp only [follow, hv, TypeTree.postorder, List.dropLast_concat, reportAll_append,
      followAll_reports fun t ht => follow_reports hv (below t ht), follow_reports hv last]
    rw [TypeTree.root, v.report_method signature]

end Visitor

/-! ## Text -/

namespace Store

variable {s s' : Store} {tree : TypeTree}

/-- What depth is allowed makes no difference once it exceeds the identity of the type. -/
theorem Nests.visitWithin_eq {σ α : Type} (h : s.Nests) (v : Visitor σ α) {depth : Nat} {ty : TypeId}
    (hd : ty.index < depth) :
    v.visitWithin s depth ty = v.visit s ty := by
  obtain ⟨tree, rfl, hu, hheight⟩ := h.exists_unfolds ty
  rw [v.visitWithin_eq_follow hu (Nat.lt_of_le_of_lt hheight hd), v.visit_eq_follow hu hheight]

/-- The qualified name of the symbol that declares a type. -/
def nameBehind? (s : Store) (ty : TypeId) : Option Name :=
  ((s.declaring? ty).bind s.symbol?).map (·.qualifiedName)

/-- The text of a type that is no method type: its tag, or the name behind it. -/
def leafText (s : Store) (ty : TypeId) : String :=
  match s.form? ty with
  | some (.primitive tag) => tag.text
  | some (.error _) => Tag.error.text
  | some form => (s.nameBehind? ty).getD form.tag.text
  | none => ""

theorem leafText_congr {ty : TypeId} (hform : s'.form? ty = s.form? ty)
    (hname : s'.nameBehind? ty = s.nameBehind? ty) : s'.leafText ty = s.leafText ty := by
  rw [leafText, hform, hname, leafText]

theorem report_typeWriter {ty : TypeId} (h : s.signature? ty = none) (st : Unit) :
    s.typeWriter.report s ty st = (s.leafText ty, ()) := by
  have hdeclared : s.declaredText ty =
      (s.nameBehind? ty).getD (((s.type? ty).map (·.tag.text)).getD "") := by
    unfold declaredText nameBehind?
    cases (s.declaring? ty).bind s.symbol? <;> rfl
  unfold signature? at h
  rw [Visitor.report, leafText, form?]
  cases ht : s.type? ty with
  | none =>
    have hname : s.nameBehind? ty = none := by simp [nameBehind?, declaring?, ht]
    simp [typeWriter, hdeclared, hname, ht]
  | some t =>
    obtain ⟨form, d⟩ := t
    cases form with
    | method g => simp [ht] at h
    | primitive tag => cases tag <;> rfl
    | error failed => rfl
    | _ => simp [typeWriter, hdeclared, ht, Ty.tag, TyForm.tag]

theorem followAll_typeWriter {ts : List TypeTree}
    (h : ∀ t ∈ ts, ∀ st, s.typeWriter.follow s t st = (t.text s.leafText, ())) (st : Unit) :
    s.typeWriter.followAll s ts st = (TypeTree.texts s.leafText ts, ()) := by
  induction ts with
  | nil => rfl
  | cons t ts ih =>
    simp only [Visitor.followAll, h t List.mem_cons_self,
      ih fun t' ht' => h t' (List.mem_cons_of_mem t ht'), TypeTree.texts]

theorem follow_typeWriter (h : s.Unfolds tree) :
    s.typeWriter.follow s tree = fun _ => (tree.text s.leafText, ()) := by
  funext st
  induction h generalizing st with
  | leaf plain => exact report_typeWriter plain st
  | @method ty params result thrown signature _ _ ihp ihr =>
    simp only [Visitor.follow, followAll_typeWriter ihp, ihr]
    rfl

/-- The text of a type is its tree written out. -/
theorem typeText_eq_text (h : s.Unfolds tree) (hd : tree.height ≤ tree.root.index) :
    s.typeText tree.root = tree.text s.leafText := by
  rw [typeText, s.typeWriter.visit_eq_follow h hd, follow_typeWriter h]

/-- The text depends on the forms of the types that a traversal comes to, and on the names behind
those without a signature. -/
theorem Unfolds.typeText_congr (h : s.Unfolds tree) (hd : tree.height ≤ tree.root.index)
    (hform : ∀ x ∈ tree.postorder, s'.form? x = s.form? x)
    (hname : ∀ x ∈ tree.leaves, s'.nameBehind? x = s.nameBehind? x) :
    s'.typeText tree.root = s.typeText tree.root := by
  rw [typeText_eq_text h hd, typeText_eq_text (h.congr hform) hd]
  refine TypeTree.text_congr fun x hx => leafText_congr (hform x ?_) (hname x hx)
  rw [h.leaves_eq] at hx
  exact List.mem_of_mem_filter hx

/-- The stores agree on what the text of a type is made of: the types that it is written with, and
the names behind those without a signature. -/
def AgreesOn (s s' : Store) (ty : TypeId) : Prop :=
  ∀ x, Relation.ReflTransGen s.Mentions ty x →
    s'.form? x = s.form? x ∧ (s.signature? x = none → s'.nameBehind? x = s.nameBehind? x)

theorem Nests.typeText_eq {ty : TypeId} (h : s.Nests)
    (ha : s.AgreesOn s' ty) : s'.typeText ty = s.typeText ty := by
  obtain ⟨tree, rfl, hu, hd⟩ := h.exists_unfolds ty
  refine hu.typeText_congr hd (fun x hx => (ha x (hu.reaches hx)).1) fun x hx => ?_
  rw [hu.leaves_eq, List.mem_filter] at hx
  exact (ha x (hu.reaches hx.1)).2 (by simpa using hx.2)

theorem Nests.hasType_of_reaches {ty x : TypeId} (h : s.Nests) (hty : s.HasType ty)
    (hx : Relation.ReflTransGen s.Mentions ty x) : s.HasType x := by
  induction hx with
  | refl => exact hty
  | tail _ hm ih => exact Nat.lt_trans (h.mentions hm) ih

end Store

end SymbolTable
