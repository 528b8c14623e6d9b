/-
What a scope shows after any history.

A scope is changed by entries, and by turning it erroneous or ordinary. It
records every entry of its history, whatever its kind was at the time
(`Records.changes`), and the kind only decides whether lookups see them. So
all that a scope answers is read off the list of its entries (`Shows`). A
copy that is kept has a history of its own from then on.
-/
import Mathlib.Data.List.Forall2
import SymbolTable.Proofs.Scopes

namespace SymbolTable

namespace Scope

inductive Change where
  | enter (name : Name) (sym : SymbolId)
  | mark (kind : ScopeKind)
  deriving DecidableEq

def Change.entry? : Change → Option (Name × SymbolId)
  | .enter name sym => some (name, sym)
  | .mark _ => none

def Change.kind? : Change → Option ScopeKind
  | .enter _ _ => none
  | .mark kind => some kind

def change (sc : Scope) : Change → Scope
  | .enter name sym => sc.enter name sym
  | .mark kind => { sc with kind }

def fresh (owner : SymbolId) : ScopeKind → Scope
  | .members => members owner
  | .error => erroneous owner

variable {sc : Scope} {kind : ScopeKind} {past : List Change} {entries : List (Name × SymbolId)}

/-- The entries made in a history. -/
def entriesOf (past : List Change) : List (Name × SymbolId) := past.filterMap Change.entry?

/-- The kind set last in a history; at first, the kind that the scope was opened with. -/
def kindAfter (kind : ScopeKind) (past : List Change) : ScopeKind :=
  (past.filterMap Change.kind?).getLastD kind

/-! ## One history -/

/-- A change of kind neither adds an entry nor loses one. -/
theorem Records.mark (h : sc.Records entries) (kind : ScopeKind) :
    (sc.change (.mark kind)).Records entries := h

theorem Records.change (h : sc.Records entries) (c : Change) :
    (sc.change c).Records (entries ++ c.entry?.toList) := by
  cases c with
  | enter name sym => exact h.enter name sym
  | mark kind =>
    rw [Change.entry?, Option.toList_none, List.append_nil]
    exact h.mark kind

theorem Records.changes (h : sc.Records entries) (past : List Change) :
    (past.foldl Scope.change sc).Records (entries ++ entriesOf past) := by
  induction past generalizing sc entries with
  | nil => simpa [entriesOf] using h
  | cons c past ih =>
    have hrest := ih (h.change c)
    rw [List.append_assoc] at hrest
    cases c with
    | enter name sym => exact hrest
    | mark kind => exact hrest

theorem kind_changes (sc : Scope) (past : List Change) :
    (past.foldl change sc).kind = kindAfter sc.kind past := by
  induction past generalizing sc with
  | nil => rfl
  | cons c past ih =>
    rw [List.foldl_cons, ih]
    cases c with
    | enter name sym => rfl
    | mark kind =>
      have hset : (Change.mark kind).kind? = some kind := rfl
      rw [kindAfter, kindAfter, List.filterMap_cons_some hset, List.getLastD_cons]
      rfl

theorem records_fresh (owner : SymbolId) (kind : ScopeKind) : (fresh owner kind).Records [] := by
  cases kind <;> rfl

theorem kind_fresh (owner : SymbolId) (kind : ScopeKind) : (fresh owner kind).kind = kind := by
  cases kind <;> rfl

/-! ## What is shown -/

/-- What a scope that was opened with `kind` answers after the changes `past`. -/
structure Shows (kind : ScopeKind) (sc : Scope) (past : List Change) : Prop where
  kind_eq : sc.kind = kindAfter kind past
  toList_eq : sc.toList =
    (firsts (entriesOf past)).map fun name => (name, under (entriesOf past) name)
  size_eq : sc.size = (entriesOf past).length
  isEmpty_iff : sc.isEmpty = true ↔ entriesOf past = []
  lookup_eq : ∀ name, sc.lookup name =
    match kindAfter kind past with
    | .members => under (entriesOf past) name
    | .error => []
  contains_iff : ∀ name sym, sc.contains name sym = true ↔ sym ∈ sc.lookup name
  /-- Turned ordinary, the scope shows all entries, those made while it was erroneous too. -/
  lookup_mark : ∀ name, (sc.change (.mark .members)).lookup name = under (entriesOf past) name

theorem Records.size_eq (h : sc.Records entries) : sc.size = entries.length := by
  rw [size_eq_length_entered, h.entered_perm.length_eq]

theorem Records.isEmpty_iff (h : sc.Records entries) : sc.isEmpty = true ↔ entries = [] := by
  have hlist : sc.isEmpty = true ↔ sc.toList = [] := List.isEmpty_iff
  rw [hlist, h, List.map_eq_nil_iff]
  constructor
  · intro hnone
    by_contra hsome
    obtain ⟨e, he⟩ := List.exists_mem_of_ne_nil entries hsome
    have hfirst : e.1 ∈ firsts entries := mem_firsts.2 (List.mem_map_of_mem he)
    simp [hnone] at hfirst
  · rintro rfl
    rfl

theorem Records.shows (h : sc.Records (entriesOf past)) (hkind : sc.kind = kindAfter kind past) :
    sc.Shows kind past where
  kind_eq := hkind
  toList_eq := h
  size_eq := h.size_eq
  isEmpty_iff := h.isEmpty_iff
  lookup_eq name := by
    cases hk : kindAfter kind past with
    | members => exact h.lookup (by simp [isError, hkind, hk]) name
    | error => exact lookup_of_isError (by simp [isError, hkind, hk]) name
  contains_iff name sym := by simp [Scope.contains]
  lookup_mark name := (h.mark .members).lookup rfl name

/-! ## Scopes and their copies -/

/-- The scopes at hand after `es`, a fresh one being there at the beginning. -/
def held (owner : SymbolId) (kind : ScopeKind) (es : List (Edit Change)) : List Scope :=
  Edit.run change (fresh owner kind) es

theorem shows_held (owner : SymbolId) (kind : ScopeKind) (es : List (Edit Change)) :
    List.Forall₂ (Shows kind) (held owner kind es) (Edit.pasts es) := by
  rw [held, Edit.run_eq, List.forall₂_map_left_iff, List.forall₂_same]
  intro past _
  have hkind := kind_changes (fresh owner kind) past
  rw [kind_fresh] at hkind
  exact ((records_fresh owner kind).changes past).shows hkind

theorem held_append (owner : SymbolId) (kind : ScopeKind) (es more : List (Edit Change)) :
    held owner kind (es ++ more) = more.foldl (Edit.apply change) (held owner kind es) :=
  Edit.run_append ..

/-- Scopes that are changed, copied and put back in any order, the first of them opened empty with
either kind. Each refines the list of the entries in its history: names in the order of first entry,
symbols in the order of entry, all of them counted, and shown to lookups as long as the scope is
ordinary. A scope that no step alters stays as it is; so a copy keeps what was copied, and gives it
back wherever it is put. -/
theorem refines_entries (owner : SymbolId) (kind : ScopeKind) (es : List (Edit Change)) :
    List.Forall₂ (Shows kind) (held owner kind es) (Edit.pasts es) ∧
      (∀ i sc more, (held owner kind es)[i]? = some sc → (∀ e ∈ more, e.altered? ≠ some i) →
        (held owner kind (es ++ more))[i]? = some sc) ∧
      ∀ i copy sc more, (held owner kind es)[i]? = some sc → copy = (held owner kind es).length →
        (∀ e ∈ more, e.altered? ≠ some copy) →
          (held owner kind (es ++ .save i :: more))[copy]? = some sc ∧
            ∀ j < (held owner kind (es ++ .save i :: more)).length,
              (held owner kind (es ++ .save i :: more ++ [.restore j copy]))[j]? = some sc := by
  refine ⟨shows_held owner kind es, ?_, ?_⟩
  · intro i sc more hi hmore
    rw [held_append]
    exact Edit.getElem?_applyAll hi hmore
  · rintro i copy sc more hi rfl hmore
    -- the copy is put after the scopes at hand, and from there on it is a scope like the others
    have hcopy : (held owner kind (es ++ .save i :: more))[(held owner kind es).length]? =
        some sc := by
      rw [held_append, List.foldl_cons]
      exact Edit.getElem?_applyAll (Edit.getElem?_save hi) hmore
    refine ⟨hcopy, fun j hj => ?_⟩
    rw [held_append, List.foldl_cons, List.foldl_nil]
    exact Edit.getElem?_restore hj hcopy

/-- The scope that was opened first is turned ordinary and gets two entries. -/
def Change.reopening : List (Edit Change) :=
  [.change 0 (.mark .members), .change 0 (.enter "b" ⟨2⟩), .change 0 (.enter "a" ⟨1⟩)]

/-- An entry into an erroneous scope is hidden. Once the scope is turned ordinary it is the first of
the entries, while a copy taken before still hides it, and hides it again when it is put back. -/
theorem refines_hidden_entries :
    ∃ hidden shown, held ⟨0⟩ .error [.change 0 (.enter "a" ⟨1⟩)] = [hidden] ∧
      (∀ e ∈ Change.reopening, e.altered? ≠ some 1) ∧
      held ⟨0⟩ .error ([.change 0 (.enter "a" ⟨1⟩)] ++ .save 0 :: Change.reopening) =
        [shown, hidden] ∧
      shown.toList = [("a", [⟨1⟩, ⟨1⟩]), ("b", [⟨2⟩])] ∧ shown.size = 3 ∧
      shown.lookup "a" = [⟨1⟩, ⟨1⟩] ∧ hidden.lookup "a" = [] ∧ hidden.isEmpty = false ∧
      (held ⟨0⟩ .error ([.change 0 (.enter "a" ⟨1⟩)] ++ .save 0 :: Change.reopening ++
        [.restore 0 1]))[0]? = some hidden := by
  have hone : held ⟨0⟩ .error [.change 0 (.enter "a" ⟨1⟩)] = [(erroneous ⟨0⟩).enter "a" ⟨1⟩] := rfl
  have hmore : ∀ e ∈ Change.reopening, e.altered? ≠ some 1 := by decide
  obtain ⟨-, -, hcopies⟩ := refines_entries ⟨0⟩ .error [.change 0 (.enter "a" ⟨1⟩)]
  obtain ⟨-, hback⟩ := hcopies 0 1 _ Change.reopening rfl rfl hmore
  obtain ⟨hshows, -⟩ := refines_entries ⟨0⟩ .error
    ([.change 0 (.enter "a" ⟨1⟩)] ++ .save 0 :: Change.reopening)
  cases hshows with
  | cons hshown hrest =>
    cases hrest with
    | cons hhidden _ =>
      exact ⟨_, _, hone, hmore, rfl, hshown.toList_eq, hshown.size_eq, hshown.lookup_eq "a",
        hhidden.lookup_eq "a", rfl, hback 0 (by decide)⟩

end Scope

end SymbolTable
