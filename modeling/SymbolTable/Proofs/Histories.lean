/-
Values in several hands, and what each has been through.

A value that is changed step by step is a fold over its history. With
several hands on it there are two ways to be: a copy has a history of its own
from the moment it is taken (`Edit`), a second handle on a shared cell has
the same history for ever (`Use`). Both machines are the same for any values,
so they also run on the histories themselves, and what is held is what the
histories make of the start (`Edit.run_eq`, `Handles.run_eq`).
-/
import Mathlib.Data.List.Induction
import Mathlib.Data.List.Nodup

namespace SymbolTable

/-! ## One more element -/

/-- One more element is one more distinct element, unless it is there already. -/
theorem eraseDups_concat {α : Type} [DecidableEq α] (l : List α) (a : α) :
    (l ++ [a]).eraseDups = if a ∈ l then l.eraseDups else l.eraseDups ++ [a] := by
  rw [List.eraseDups_append, List.removeAll]
  split
  · next h => rw [List.filter_cons_of_neg (by simpa using h)]; exact List.append_nil _
  · next h => rw [List.filter_cons_of_pos (by simpa using h)]; rfl

theorem nodup_eraseDups {α : Type} [DecidableEq α] (l : List α) : l.eraseDups.Nodup := by
  induction l using List.reverseRecOn with
  | nil => exact List.nodup_nil
  | append_singleton l a ih =>
    rw [eraseDups_concat]
    split
    · exact ih
    · next h =>
      rw [← List.concat_eq_append]
      exact ih.concat fun hmem => h (List.mem_eraseDups.1 hmem)

theorem map_modify {α β : Type} (f : α → β) {g : α → α} {g' : β → β} (h : ∀ a, f (g a) = g' (f a))
    (l : List α) (i : Nat) : (l.modify i g).map f = (l.map f).modify i g' := by
  apply List.ext_getElem?
  intro j
  simp only [List.getElem?_map, List.getElem?_modify]
  cases l[j]? with
  | none => rfl
  | some a =>
    by_cases hij : i = j
    · simp [hij, h]
    · simp [hij]

/-! ## Copies -/

/-- A step with values at hand, each known by its position. -/
inductive Edit (γ : Type) where
  | change (i : Nat) (c : γ)
  /-- A copy of the value at `i` is put after those at hand. -/
  | save (i : Nat)
  /-- The value at `i` gives way to a copy of the one at `j`. -/
  | restore (i j : Nat)
  deriving DecidableEq

namespace Edit

variable {α β γ : Type} {change : α → γ → α} {held : List α} {a : α} {i j : Nat}

/-- The position whose value is another one after the step. -/
def altered? : Edit γ → Option Nat
  | .change i _ | .restore i _ => some i
  | .save _ => none

def apply (change : α → γ → α) (held : List α) : Edit γ → List α
  | .change i c => held.modify i (change · c)
  | .save i => held ++ held[i]?.toList
  | .restore i j => held[j]?.elim held (held.set i)

/-- What is at hand after the steps, the first value being there at the beginning. -/
def run (change : α → γ → α) (start : α) (es : List (Edit γ)) : List α :=
  es.foldl (apply change) [start]

/-- The changes that made each value at hand. -/
def pasts (es : List (Edit γ)) : List (List γ) := run (fun past c => past ++ [c]) [] es

theorem apply_map {change' : β → γ → β} (f : α → β) (h : ∀ a c, f (change a c) = change' (f a) c)
    (held : List α) (e : Edit γ) : (apply change held e).map f = apply change' (held.map f) e := by
  cases e with
  | change i c => exact map_modify f (fun a => h a c) held i
  | save i => cases hi : held[i]? <;> simp [apply, hi]
  | restore i j => cases hj : held[j]? <;> simp [apply, hj, List.map_set]

theorem run_append (change : α → γ → α) (start : α) (es more : List (Edit γ)) :
    run change start (es ++ more) = more.foldl (apply change) (run change start es) :=
  List.foldl_append

/-- Every value at hand is what its own history makes of the first one. -/
theorem run_eq (change : α → γ → α) (start : α) (es : List (Edit γ)) :
    run change start es = (pasts es).map fun past => past.foldl change start := by
  induction es using List.reverseRecOn with
  | nil => rfl
  | append_singleton es e ih =>
    -- the step on values follows the step on histories, since a history is made from the left
    rw [pasts, run_append, run_append, ih]
    exact (apply_map _ (fun past c => List.foldl_concat ..) (pasts es) e).symm

/-! ### What is not altered stays -/

theorem getElem?_apply {e : Edit γ} (hi : held[i]? = some a) (he : e.altered? ≠ some i) :
    (apply change held e)[i]? = some a := by
  cases e with
  | change j c =>
    have hne : j ≠ i := fun h => he (congrArg some h)
    simp [apply, hne, hi]
  | save j => exact (List.getElem?_append_left (List.getElem?_eq_some_iff.1 hi).1).trans hi
  | restore j k =>
    have hne : j ≠ i := fun h => he (congrArg some h)
    cases hk : held[k]? <;> simp [apply, hk, hne, hi]

theorem getElem?_applyAll {es : List (Edit γ)} (hi : held[i]? = some a)
    (hes : ∀ e ∈ es, e.altered? ≠ some i) : (es.foldl (apply change) held)[i]? = some a := by
  induction es generalizing held with
  | nil => exact hi
  | cons e es ih =>
    exact ih (getElem?_apply hi (hes e List.mem_cons_self)) fun e he =>
      hes e (List.mem_cons_of_mem _ he)

/-- A copy is what was copied. -/
theorem getElem?_save (hi : held[i]? = some a) :
    (apply change held (.save i))[held.length]? = some a := by
  simp [apply, hi]

theorem getElem?_restore (hi : i < held.length) (hj : held[j]? = some a) :
    (apply change held (.restore i j))[i]? = some a := by
  simp [apply, hj, hi]

end Edit

/-! ## Shared cells -/

/-- Handles, each known by its position, and the cells they lead to. -/
@[ext] structure Handles (α : Type) where
  cells : List α
  refs : List Nat
  linked : ∀ r ∈ refs, r < cells.length

/-- A step with handles. -/
inductive Use (γ : Type) where
  | create
  /-- One more handle on the cell that handle `i` leads to. -/
  | clone (i : Nat)
  | call (i : Nat) (c : γ)
  deriving DecidableEq

namespace Handles

variable {α β γ : Type} {change : α → γ → α} {start a : α} {st : Handles α} {i j r : Nat}

/-- What is in the cell that a handle leads to. -/
def behind? (st : Handles α) (i : Nat) : Option α := st.refs[i]?.bind (st.cells[·]?)

def empty : Handles α := ⟨[], [], by simp⟩

def map (f : α → β) (st : Handles α) : Handles β :=
  ⟨st.cells.map f, st.refs, by simpa using st.linked⟩

/-- A new cell, and a handle on it. -/
def create (st : Handles α) (start : α) : Handles α where
  cells := st.cells ++ [start]
  refs := st.refs ++ [st.cells.length]
  linked r hr := by
    rw [List.length_append, List.length_singleton]
    rcases List.mem_append.1 hr with hr | hr
    · exact Nat.lt_succ_of_lt (st.linked r hr)
    · exact Nat.lt_succ_of_le (Nat.le_of_eq (List.mem_singleton.1 hr))

def clone (st : Handles α) (i : Nat) : Handles α where
  cells := st.cells
  refs := st.refs ++ st.refs[i]?.toList
  linked r hr := by
    rcases List.mem_append.1 hr with hr | hr
    · exact st.linked r hr
    · exact st.linked r (List.mem_of_getElem? (Option.mem_toList.1 hr))

/-- The cell that a handle leads to is changed; nothing is, without such a handle. -/
def modify (st : Handles α) (i : Nat) (f : α → α) : Handles α where
  cells := st.refs[i]?.elim st.cells (st.cells.modify · f)
  refs := st.refs
  linked r hr := by
    cases hi : st.refs[i]? with
    | none => exact st.linked r hr
    | some q => simpa using st.linked r hr

def use (change : α → γ → α) (start : α) (st : Handles α) : Use γ → Handles α
  | .create => st.create start
  | .clone i => st.clone i
  | .call i c => st.modify i (change · c)

/-- The handles after the steps, none being there at the beginning. -/
def run (change : α → γ → α) (start : α) (us : List (Use γ)) : Handles α :=
  us.foldl (use change start) empty

/-- The calls made to each cell, through whatever handle. -/
def pasts (us : List (Use γ)) : Handles (List γ) := run (fun past c => past ++ [c]) [] us

theorem behind?_map (f : α → β) (st : Handles α) (i : Nat) :
    (st.map f).behind? i = (st.behind? i).map f := by
  cases hr : st.refs[i]? <;> simp [behind?, map, hr]

theorem use_map {change' : β → γ → β} (f : α → β) (h : ∀ a c, f (change a c) = change' (f a) c)
    (start : α) (st : Handles α) (u : Use γ) :
    (use change start st u).map f = use change' (f start) (st.map f) u := by
  cases u with
  | create => simp [use, create, map]
  | clone i => rfl
  | call i c =>
    ext1
    · simp only [use, modify, map]
      cases st.refs[i]? with
      | none => rfl
      | some r => exact map_modify f (fun a => h a c) st.cells r
    · rfl

theorem run_append (change : α → γ → α) (start : α) (us more : List (Use γ)) :
    run change start (us ++ more) = more.foldl (use change start) (run change start us) :=
  List.foldl_append

/-- Every cell is what the calls made to it make of a new one. -/
theorem run_eq (change : α → γ → α) (start : α) (us : List (Use γ)) :
    run change start us = (pasts us).map fun past => past.foldl change start := by
  induction us using List.reverseRecOn with
  | nil => rfl
  | append_singleton us u ih =>
    rw [pasts, run_append, run_append, ih]
    exact (use_map _ (fun past c => List.foldl_concat ..) [] (pasts us) u).symm

theorem behind?_run {us : List (Use γ)} {past : List γ} (h : (pasts us).behind? i = some past) :
    (run change start us).behind? i = some (past.foldl change start) := by
  rw [run_eq, behind?_map, h]
  rfl

/-! ### A handle leads to one cell for ever -/

theorem exists_behind? (hi : i < st.refs.length) : ∃ a, st.behind? i = some a := by
  have hcell := st.linked st.refs[i] (List.getElem_mem hi)
  exact ⟨st.cells[st.refs[i]], by simp [behind?, hi, hcell]⟩

theorem refs_use (u : Use γ) (hr : st.refs[i]? = some r) :
    (use change start st u).refs[i]? = some r := by
  have hlt := (List.getElem?_eq_some_iff.1 hr).1
  cases u with
  | create => exact (List.getElem?_append_left hlt).trans hr
  | clone j => exact (List.getElem?_append_left hlt).trans hr
  | call j c => exact hr

theorem refs_useAll (us : List (Use γ)) (hr : st.refs[i]? = some r) :
    (us.foldl (use change start) st).refs[i]? = some r := by
  induction us generalizing st with
  | nil => exact hr
  | cons u us ih => exact ih (refs_use u hr)

/-- A handle and its clone are the same from then on. -/
theorem behind?_clone (us : List (Use γ)) (hr : st.refs[i]? = some r) :
    ((Use.clone i :: us).foldl (use change start) st).behind? st.refs.length =
      ((Use.clone i :: us).foldl (use change start) st).behind? i := by
  have hclone : (use change start st (.clone i)).refs[st.refs.length]? = some r := by
    simp [use, clone, hr]
  have hold : (use change start st (.clone i)).refs[i]? = some r := refs_use _ hr
  rw [List.foldl_cons, behind?, behind?, refs_useAll us hclone, refs_useAll us hold]

/-! ### One step, seen through one handle -/

theorem behind?_create (h : st.behind? i = some a) :
    (use change start st .create).behind? i = some a := by
  obtain ⟨r, hr, hcell⟩ := Option.bind_eq_some_iff.1 h
  have hold : (st.cells ++ [start])[r]? = some a :=
    (List.getElem?_append_left (List.getElem?_eq_some_iff.1 hcell).1).trans hcell
  rw [behind?, refs_use .create hr, Option.bind_some]
  exact hold

/-- A call through a handle on the same cell is a call through this one. -/
theorem behind?_call (hj : st.refs[j]? = st.refs[i]?) (h : st.behind? i = some a) (c : γ) :
    (use change start st (.call j c)).behind? i = some (change a c) := by
  obtain ⟨r, hr, hcell⟩ := Option.bind_eq_some_iff.1 h
  rw [hr] at hj
  simp [behind?, use, modify, hr, hj, hcell]

theorem behind?_call_other (hj : st.refs[j]? ≠ st.refs[i]?) (h : st.behind? i = some a) (c : γ) :
    (use change start st (.call j c)).behind? i = some a := by
  obtain ⟨r, hr, hcell⟩ := Option.bind_eq_some_iff.1 h
  cases hq : st.refs[j]? with
  | none => simp [behind?, use, modify, hr, hq, hcell]
  | some q =>
    have hne : q ≠ r := fun he => hj (by rw [hq, hr, he])
    simp [behind?, use, modify, hr, hq, hne, hcell]

/-- Calls that do the same to a cell are the same step, through whichever handle on it they go. -/
theorem use_call_congr {c d : γ} (hj : st.refs[j]? = st.refs[i]?) (h : st.behind? i = some a)
    (hc : change a c = change a d) :
    use change start st (.call j c) = use change start st (.call i d) := by
  obtain ⟨r, hr, hcell⟩ := Option.bind_eq_some_iff.1 h
  rw [hr] at hj
  ext1
  · simp only [use, modify, hj, hr, Option.elim_some]
    apply List.ext_getElem?
    intro q
    rw [List.getElem?_modify, List.getElem?_modify]
    by_cases hq : r = q
    · simp [← hq, hcell, hc]
    · simp [hq]
  · rfl

/-- What a call changes nothing of is the same behind every handle. -/
theorem map_use_call {f : α → β} {c : γ} (hc : ∀ a, f (change a c) = f a) (st : Handles α) (j : Nat) :
    (use change start st (.call j c)).map f = st.map f := by
  ext1
  · simp only [use, modify, map]
    cases st.refs[j]? with
    | none => rfl
    | some r =>
      have hmap : (st.cells.modify r (change · c)).map f = (st.cells.map f).modify r id :=
        map_modify f hc st.cells r
      exact hmap.trans (List.modify_id ..)
  · rfl

/-- A history only grows. -/
theorem behind?_use_concat {st : Handles (List γ)} {past : List γ} (u : Use γ)
    (h : st.behind? i = some past) :
    ∃ new, (use (fun past c => past ++ [c]) [] st u).behind? i = some (past ++ new) := by
  have hsame : some (past ++ []) = some past := by rw [List.append_nil]
  cases u with
  | create => exact ⟨[], (behind?_create h).trans hsame.symm⟩
  | clone j =>
    obtain ⟨r, hr, hcell⟩ := Option.bind_eq_some_iff.1 h
    refine ⟨[], ?_⟩
    rw [behind?, refs_use (.clone j) hr, hsame]
    exact hcell
  | call j c =>
    by_cases hj : st.refs[j]? = st.refs[i]?
    · exact ⟨[c], behind?_call hj h c⟩
    · exact ⟨[], (behind?_call_other hj h c).trans hsame.symm⟩

theorem behind?_pasts_append {us : List (Use γ)} {past : List γ} (more : List (Use γ))
    (h : (pasts us).behind? i = some past) :
    ∃ new, (pasts (us ++ more)).behind? i = some (past ++ new) := by
  induction more using List.reverseRecOn with
  | nil => exact ⟨[], by rwa [List.append_nil, List.append_nil]⟩
  | append_singleton more u ih =>
    obtain ⟨new, hnew⟩ := ih
    obtain ⟨new', hnew'⟩ := behind?_use_concat u hnew
    refine ⟨new ++ new', ?_⟩
    rw [← List.append_assoc, pasts, run_append, ← List.append_assoc]
    exact hnew'

end Handles

end SymbolTable
