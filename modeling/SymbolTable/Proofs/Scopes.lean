/-
A scope as the list of its entries.

The groups of a scope are a function of the entries made so far: the names
in the order of their first entry, each with its symbols in the order of
theirs (`Records`). Counting, listing and looking up are read off that list.
-/
import SymbolTable.CommandLine.Listing
import SymbolTable.Proofs.Histories
import SymbolTable.Proofs.StoreFacts

namespace SymbolTable

/-- Putting a value under a key that is listed changes the value there. -/
theorem putEntry_map {κ α : Type} [DecidableEq κ] {k : κ} (v : α) (f : κ → α) {ks : List κ}
    (hn : ks.Nodup) (hk : k ∈ ks) :
    putEntry k v (ks.map fun a => (a, f a)) = ks.map fun a => (a, if a = k then v else f a) := by
  induction ks with
  | nil => simp at hk
  | cons a ks ih =>
    obtain ⟨ha, hn⟩ := List.nodup_cons.1 hn
    by_cases hak : a = k
    · subst hak
      have hrest : ks.map (fun b => (b, if b = a then v else f b)) = ks.map fun b => (b, f b) :=
        List.map_congr_left fun b hb => by rw [if_neg fun (e : b = a) => ha (e ▸ hb)]
      simp [putEntry, hrest]
    · have hk' : k ∈ ks := (List.mem_cons.1 hk).resolve_left fun e => hak e.symm
      simp [putEntry, hak, ih hn hk']

/-- A value under a key that is not listed goes to the end. -/
theorem putEntry_of_notMem {κ α : Type} [DecidableEq κ] {k : κ} (v : α) {l : List (κ × α)}
    (hk : k ∉ l.map (·.1)) : putEntry k v l = l ++ [(k, v)] := by
  induction l with
  | nil => rfl
  | cons p l ih =>
    obtain ⟨a, b⟩ := p
    simp only [List.map_cons, List.mem_cons, not_or] at hk
    simp [putEntry, Ne.symm hk.1, ih hk.2]

/-- Taking a list key by key takes every element once, if every key is taken once. -/
theorem flatMap_filter_perm {κ α : Type} [DecidableEq κ] (key : α → κ) {ks : List κ} (hn : ks.Nodup)
    {l : List α} (hl : ∀ x ∈ l, key x ∈ ks) :
    (ks.flatMap fun k => l.filter fun x => decide (key x = k)).Perm l := by
  induction ks generalizing l with
  | nil => simp [List.eq_nil_iff_forall_not_mem.2 fun x hx => by simpa using hl x hx]
  | cons k ks ih =>
    obtain ⟨hk, hn⟩ := List.nodup_cons.1 hn
    -- the elements under the other keys are found among those not under `k`
    have hrest : ∀ a ∈ ks, l.filter (fun x => decide (key x = a)) =
        (l.filter fun x => !decide (key x = k)).filter fun x => decide (key x = a) := by
      intro a ha
      have hak : a ≠ k := fun e => hk (e ▸ ha)
      rw [List.filter_filter]
      exact List.filter_congr fun x _ => by by_cases hx : key x = a <;> simp [hx, hak]
    have hcover : ∀ x ∈ l.filter fun x => !decide (key x = k), key x ∈ ks := by
      intro x hx
      obtain ⟨hx, hne⟩ := List.mem_filter.1 hx
      exact (List.mem_cons.1 (hl x hx)).resolve_left (by simpa using hne)
    rw [List.flatMap_cons, List.flatMap_congr hrest]
    exact ((ih hn hcover).append_left _).trans (List.filter_append_perm _ l)

namespace Scope

variable {sc : Scope} {entries : List (Name × SymbolId)} {name : Name}

/-- The names that were entered, in the order of their first entry. -/
def firsts (entries : List (Name × SymbolId)) : List Name := (entries.map (·.1)).eraseDups

/-- The symbols that were entered under a name, in the order of entry. -/
def under (entries : List (Name × SymbolId)) (name : Name) : List SymbolId :=
  (entries.filter fun e => decide (e.1 = name)).map (·.2)

/-- The groups of a scope are those of the entries. -/
def Records (sc : Scope) (entries : List (Name × SymbolId)) : Prop :=
  sc.toList = (firsts entries).map fun name => (name, under entries name)

theorem mem_firsts : name ∈ firsts entries ↔ name ∈ entries.map (·.1) := List.mem_eraseDups

theorem nodup_firsts (entries : List (Name × SymbolId)) : (firsts entries).Nodup := nodup_eraseDups _

theorem firsts_append (entries : List (Name × SymbolId)) (name : Name) (x : SymbolId) :
    firsts (entries ++ [(name, x)]) =
      if name ∈ firsts entries then firsts entries else firsts entries ++ [name] := by
  simp only [mem_firsts]
  rw [firsts, List.map_append]
  exact eraseDups_concat _ name

theorem under_append (entries : List (Name × SymbolId)) (name other : Name) (x : SymbolId) :
    under (entries ++ [(name, x)]) other =
      if other = name then under entries name ++ [x] else under entries other := by
  by_cases h : other = name
  · simp [under, h]
  · have h' : ¬ name = other := fun e => h e.symm
    simp [under, h, h']

theorem under_of_notMem (h : name ∉ firsts entries) : under entries name = [] := by
  simp only [under, List.map_eq_nil_iff, List.filter_eq_nil_iff, decide_eq_true_eq]
  rintro e he rfl
  exact h (mem_firsts.2 (List.mem_map_of_mem he))

theorem records_members (owner : SymbolId) : (members owner).Records [] := rfl

theorem Records.get? (h : sc.Records entries) (name : Name) :
    (sc.groups.get? name).getD [] = under entries name := by
  by_cases hname : name ∈ firsts entries
  · have hmem : (name, under entries name) ∈ sc.toList := h ▸ List.mem_map.2 ⟨name, hname, rfl⟩
    rw [OrderedMap.get?_of_mem_entries hmem, Option.getD_some]
  · cases hg : sc.groups.get? name with
    | none => rw [under_of_notMem hname, Option.getD_none]
    | some xs =>
      have hmem : (name, xs) ∈ sc.toList := OrderedMap.mem_entries_of_get? hg
      rw [h] at hmem
      obtain ⟨n, hn, he⟩ := List.mem_map.1 hmem
      obtain rfl : n = name := congrArg Prod.fst he
      exact absurd hn hname

/-- A scope that records entries records one more after it is made. -/
theorem Records.enter (h : sc.Records entries) (name : Name) (x : SymbolId) :
    (sc.enter name x).Records (entries ++ [(name, x)]) := by
  have hput : (sc.enter name x).toList = putEntry name (under entries name ++ [x])
      ((firsts entries).map fun n => (n, under entries n)) := by
    rw [← h, ← h.get? name]
    simp only [toList, Scope.enter, OrderedMap.insert]
  rw [Records, hput, firsts_append]
  by_cases hname : name ∈ firsts entries
  · rw [if_pos hname, putEntry_map _ _ (nodup_firsts _) hname]
    exact List.map_congr_left fun n _ => by rw [under_append]
  · have hkeys : name ∉ ((firsts entries).map fun n => (n, under entries n)).map (·.1) := by
      simpa [Function.comp_def] using hname
    rw [if_neg hname, putEntry_of_notMem _ hkeys, List.map_append, List.map_singleton, under_append,
      if_pos rfl]
    congr 1
    refine List.map_congr_left fun n hn => ?_
    rw [under_append, if_neg fun (e : n = name) => hname (e ▸ hn)]

theorem Records.lookup (h : sc.Records entries) (hkind : sc.isError = false) (name : Name) :
    sc.lookup name = under entries name := by
  rw [Scope.lookup, hkind, ← h.get? name]
  rfl

theorem Records.entered (h : sc.Records entries) :
    sc.entered =
      (firsts entries).flatMap fun name => entries.filter fun e => decide (e.1 = name) := by
  rw [Scope.entered, h, List.flatMap_map]
  congr 1
  funext name
  simp only [under, List.map_map]
  refine (List.map_congr_left fun e he => ?_).trans (List.map_id _)
  have hname : e.1 = name := by simpa using (List.mem_filter.1 he).2
  exact Prod.ext hname.symm rfl

/-- Every entry is listed once. -/
theorem Records.entered_perm (h : sc.Records entries) : sc.entered.Perm entries := by
  rw [h.entered]
  exact flatMap_filter_perm Prod.fst (nodup_firsts _) fun e he => mem_firsts.2 (List.mem_map_of_mem he)

theorem size_eq_length_entered (sc : Scope) : sc.size = sc.entered.length := by
  simp [size, entered, toList, OrderedMap.values, List.length_flatMap, List.sum_eq_foldl,
    List.foldl_map]

/-- A scope answers no lookup if it is erroneous or has no entry. -/
theorem lookup_eq_nil_iff (sc : Scope) :
    (∀ name, sc.lookup name = []) ↔ sc.isError = true ∨ sc.size = 0 := by
  cases hkind : sc.isError with
  | true => simp [lookup_of_isError hkind]
  | false =>
    have hget : ∀ name, sc.lookup name = (sc.groups.get? name).getD [] := fun name => by
      simp [lookup, hkind]
    simp only [hget, size_eq_length_entered, Bool.false_eq_true, false_or, List.length_eq_zero_iff,
      entered, List.flatMap_eq_nil_iff, List.map_eq_nil_iff]
    constructor
    · rintro h ⟨name, xs⟩ hmem
      simpa [OrderedMap.get?_of_mem_entries hmem] using h name
    · intro h name
      cases hg : sc.groups.get? name with
      | none => rfl
      | some xs => exact h (name, xs) (OrderedMap.mem_entries_of_get? hg)

end Scope

end SymbolTable
