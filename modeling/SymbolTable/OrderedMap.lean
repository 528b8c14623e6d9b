/-
Maps that remember the order in which their keys first appeared.

A map is a list of entries with distinct keys. Putting a value under a key
that is present changes the value in place; a new key goes to the end.
-/

namespace SymbolTable

/-- The entries with `v` under `k`: in place if `k` is a key, at the end otherwise. -/
def putEntry {κ α : Type} [DecidableEq κ] (k : κ) (v : α) : List (κ × α) → List (κ × α)
  | [] => [(k, v)]
  | (k', v') :: rest => if k' = k then (k, v) :: rest else (k', v') :: putEntry k v rest

theorem keys_putEntry {κ α : Type} [DecidableEq κ] (k : κ) (v : α) (l : List (κ × α)) :
    (putEntry k v l).map (·.1) = if k ∈ l.map (·.1) then l.map (·.1) else l.map (·.1) ++ [k] := by
  induction l with
  | nil => rfl
  | cons p l ih =>
    obtain ⟨k', v'⟩ := p
    by_cases h : k' = k
    · subst h; simp [putEntry]
    · have h' : ¬ k = k' := fun e => h e.symm
      simp only [putEntry, h, if_false, List.map_cons, ih, List.mem_cons, h', false_or]
      split <;> rfl

theorem nodup_putEntry {κ α : Type} [DecidableEq κ] (k : κ) (v : α) {l : List (κ × α)}
    (h : (l.map (·.1)).Nodup) : ((putEntry k v l).map (·.1)).Nodup := by
  rw [keys_putEntry]
  split
  · exact h
  · rename_i hk
    rw [List.nodup_append]
    exact ⟨h, by simp, by intro a ha b hb; simp at hb; subst hb; exact fun e => hk (e ▸ ha)⟩

/-- A finite map whose keys are listed in the order of their first appearance. -/
structure OrderedMap (κ α : Type) where
  entries : List (κ × α)
  distinct : (entries.map (·.1)).Nodup
  deriving DecidableEq

namespace OrderedMap

variable {κ α : Type}

def empty : OrderedMap κ α := ⟨[], by simp⟩

def keys (m : OrderedMap κ α) : List κ := m.entries.map (·.1)

def values (m : OrderedMap κ α) : List α := m.entries.map (·.2)

def size (m : OrderedMap κ α) : Nat := m.entries.length

def isEmpty (m : OrderedMap κ α) : Bool := m.entries.isEmpty

variable [DecidableEq κ]

def get? (m : OrderedMap κ α) (k : κ) : Option α :=
  (m.entries.find? fun p => decide (p.1 = k)).map (·.2)

def contains (m : OrderedMap κ α) (k : κ) : Bool := (m.get? k).isSome

/-- Puts `v` under `k`, keeping the place of a key that is present. -/
def insert (m : OrderedMap κ α) (k : κ) (v : α) : OrderedMap κ α :=
  ⟨putEntry k v m.entries, nodup_putEntry k v m.distinct⟩

def erase (m : OrderedMap κ α) (k : κ) : OrderedMap κ α :=
  ⟨m.entries.filter fun p => decide (p.1 ≠ k),
    (List.filter_sublist.map _).nodup m.distinct⟩

/-! ## Looking up after a change -/

@[simp] theorem get?_empty (k : κ) : (empty : OrderedMap κ α).get? k = none := rfl

theorem find?_putEntry_self (k : κ) (v : α) (l : List (κ × α)) :
    (putEntry k v l).find? (fun p => decide (p.1 = k)) = some (k, v) := by
  induction l with
  | nil => simp [putEntry]
  | cons p l ih =>
    obtain ⟨k', v'⟩ := p
    by_cases h : k' = k
    · simp [putEntry, h]
    · simp [putEntry, h, ih]

theorem find?_putEntry_other {k k' : κ} (hne : k' ≠ k) (v : α) (l : List (κ × α)) :
    (putEntry k v l).find? (fun p => decide (p.1 = k')) = l.find? (fun p => decide (p.1 = k')) := by
  have hne' : ¬ k = k' := fun e => hne e.symm
  induction l with
  | nil => simp [putEntry, hne']
  | cons p l ih =>
    obtain ⟨a, b⟩ := p
    by_cases h : a = k
    · subst h; simp [putEntry, hne']
    · simp only [putEntry, h, if_false, List.find?_cons]
      split
      · rfl
      · exact ih

@[simp] theorem get?_insert_self (m : OrderedMap κ α) (k : κ) (v : α) :
    (m.insert k v).get? k = some v := by
  simp [get?, insert, find?_putEntry_self]

theorem get?_insert_other (m : OrderedMap κ α) {k k' : κ} (v : α) (hne : k' ≠ k) :
    (m.insert k v).get? k' = m.get? k' := by
  simp only [get?, insert, find?_putEntry_other hne]

theorem keys_insert (m : OrderedMap κ α) (k : κ) (v : α) :
    (m.insert k v).keys = if k ∈ m.keys then m.keys else m.keys ++ [k] :=
  keys_putEntry k v m.entries

end OrderedMap

end SymbolTable
