/-
Cutting names, one separator at a time.

The names around a name are listed innermost first. What carries every
recursion over them: the list is the name before the last separator,
followed by that name's own list, and each name in it is shorter.
-/
import SymbolTable.Name

namespace SymbolTable

theorem exists_last_separator {sep : Char} {l : List Char} (h : sep ∈ l) :
    ∃ a b, l = a ++ sep :: b ∧ sep ∉ b := by
  induction l with
  | nil => simp at h
  | cons c l ih =>
    by_cases hl : sep ∈ l
    · obtain ⟨a, b, rfl, hb⟩ := ih hl
      exact ⟨c :: a, b, rfl, hb⟩
    · have hc : sep = c := by simpa [hl] using h
      exact ⟨[], l, by simp [hc], hl⟩

theorem partsBefore_of_notMem {sep : Char} {l : List Char} (h : sep ∉ l) : partsBefore sep l = [] := by
  induction l with
  | nil => rfl
  | cons c l ih =>
    simp only [List.mem_cons, not_or] at h
    simp [partsBefore, ih h.2, Ne.symm h.1]

theorem partsBefore_append {sep : Char} (a : List Char) {b : List Char} (hb : sep ∉ b) :
    partsBefore sep (a ++ sep :: b) = partsBefore sep a ++ [a] := by
  induction a with
  | nil => simp [partsBefore, partsBefore_of_notMem hb]
  | cons c a ih =>
    simp only [List.cons_append, partsBefore, ih, List.map_append, List.map_cons, List.map_nil]
    split <;> rfl

theorem afterLast_of_notMem {sep : Char} {l : List Char} (h : sep ∉ l) : afterLast sep l = l := by
  cases l with
  | nil => rfl
  | cons c l =>
    simp only [List.mem_cons, not_or] at h
    simp [afterLast, h.2, Ne.symm h.1]

theorem afterLast_append {sep : Char} (a : List Char) {b : List Char} (hb : sep ∉ b) :
    afterLast sep (a ++ sep :: b) = b := by
  induction a with
  | nil => simp [afterLast, afterLast_of_notMem hb]
  | cons c a ih => simp [afterLast, ih]

/-- A text without a `$` stays as it is when it is dotted. -/
theorem map_dot_of_notMem {l : List Char} (h : '$' ∉ l) :
    l.map (fun c => if c = '$' then '.' else c) = l := by
  induction l with
  | nil => rfl
  | cons c l ih =>
    simp only [List.mem_cons, not_or] at h
    simp [ih h.2, Ne.symm h.1]

namespace Name

theorem enclosing_of_notMem {sep : Char} {n : Name} (h : sep ∉ n.toList) : n.enclosing sep = [] := by
  simp [enclosing, partsBefore_of_notMem h]

theorem lastPart_of_notMem {sep : Char} {n : Name} (h : sep ∉ n.toList) : n.lastPart sep = n := by
  simp [lastPart, afterLast_of_notMem h]

theorem packagePart_of_notMem {n : Name} (h : '.' ∉ n.toList) : n.packagePart = "" := by
  simp [packagePart, enclosing_of_notMem h]

/-! ## The last cut -/

/-- At its last `sep`, `n` falls into `outer` and `inner`. -/
def Cut (sep : Char) (n outer inner : Name) : Prop :=
  n.toList = outer.toList ++ sep :: inner.toList ∧ sep ∉ inner.toList

instance (sep : Char) (n outer inner : Name) : Decidable (n.Cut sep outer inner) :=
  inferInstanceAs (Decidable (_ ∧ _))

theorem exists_cut {sep : Char} {n : Name} (h : sep ∈ n.toList) :
    ∃ outer inner, n.Cut sep outer inner := by
  obtain ⟨a, b, hn, hb⟩ := exists_last_separator h
  exact ⟨String.ofList a, String.ofList b, by simpa using hn, by simpa using hb⟩

section Cut

variable {sep : Char} {n outer inner : Name}

/-- A name with a separator is enclosed by what precedes the last one, and by what encloses that. -/
theorem Cut.enclosing (h : n.Cut sep outer inner) :
    n.enclosing sep = outer :: outer.enclosing sep := by
  simp [Name.enclosing, h.1, partsBefore_append _ h.2]

theorem Cut.lastPart (h : n.Cut sep outer inner) : n.lastPart sep = inner := by
  simp [Name.lastPart, h.1, afterLast_append _ h.2]

theorem Cut.packagePart (h : n.Cut '.' outer inner) : n.packagePart = outer := by
  simp [Name.packagePart, h.enclosing]

theorem Cut.shorter (h : n.Cut sep outer inner) : outer.toList.length < n.toList.length := by
  simp only [h.1, List.length_append, List.length_cons]
  omega

/-- The source name of a nested class is that of its outer class with the inner name. -/
theorem Cut.dotted (h : n.Cut '$' outer inner) : n.dotted = outer.dotted ++ "." ++ inner := by
  apply String.toList_inj.1
  simp [Name.dotted, h.1, map_dot_of_notMem h.2]

end Cut

theorem mem_of_head?_enclosing {sep : Char} {n outer : Name}
    (h : (n.enclosing sep).head? = some outer) : sep ∈ n.toList :=
  Decidable.byContradiction fun hsep => by simp [enclosing_of_notMem hsep] at h

theorem shorter_of_head?_enclosing {sep : Char} {n outer : Name}
    (h : (n.enclosing sep).head? = some outer) : outer.toList.length < n.toList.length := by
  obtain ⟨o, inner, hcut⟩ := exists_cut (mem_of_head?_enclosing h)
  obtain rfl : o = outer := by simpa [hcut.enclosing] using h
  exact hcut.shorter

theorem notMem_of_enclosing {sep : Char} {n : Name} (h : n.enclosing sep = []) : sep ∉ n.toList := by
  intro hsep
  obtain ⟨outer, inner, hcut⟩ := exists_cut hsep
  simp [hcut.enclosing] at h

theorem dotted_of_notMem {n : Name} (h : '$' ∉ n.toList) : n.dotted = n := by
  simp [dotted, map_dot_of_notMem h]

/-! ## Packages -/

/-- `n` is cut at its last dot into a package and a simple name; without a dot it is in the root
package. -/
def InPackage (n full simple : Name) : Prop :=
  n.Cut '.' full simple ∨ '.' ∉ n.toList ∧ full = "" ∧ simple = n

instance (n full simple : Name) : Decidable (n.InPackage full simple) :=
  inferInstanceAs (Decidable (_ ∨ _))

theorem inPackage_iff {n full simple : Name} :
    n.InPackage full simple ↔ n.packagePart = full ∧ n.lastPart '.' = simple := by
  constructor
  · intro h
    rcases h with hcut | ⟨hdot, rfl, rfl⟩
    · exact ⟨hcut.packagePart, hcut.lastPart⟩
    · exact ⟨packagePart_of_notMem hdot, lastPart_of_notMem hdot⟩
  · rintro ⟨rfl, rfl⟩
    by_cases hdot : '.' ∈ n.toList
    · obtain ⟨outer, inner, hcut⟩ := exists_cut hdot
      rw [hcut.packagePart, hcut.lastPart]
      exact .inl hcut
    · exact .inr ⟨hdot, packagePart_of_notMem hdot, lastPart_of_notMem hdot⟩

/-- The packages around a package are its parent and those around the parent. -/
theorem outerPackages_of_ne {n : Name} (h : n ≠ "") :
    n.outerPackages = n.packagePart :: n.packagePart.outerPackages := by
  by_cases hdot : '.' ∈ n.toList
  · obtain ⟨outer, inner, hcut⟩ := exists_cut hdot
    rw [hcut.packagePart]
    by_cases ho : outer = ""
    · subst ho
      simp [outerPackages, h, hcut.enclosing, show enclosing '.' "" = [] from rfl]
    · simp [outerPackages, h, hcut.enclosing, ho]
  · simp [outerPackages, h, packagePart, enclosing_of_notMem hdot]

theorem outerPackages_empty : outerPackages "" = [] := rfl

theorem packagePart_lt {n : Name} (h : n ≠ "") :
    n.packagePart.toList.length < n.toList.length := by
  by_cases hdot : '.' ∈ n.toList
  · obtain ⟨outer, inner, hcut⟩ := exists_cut hdot
    exact hcut.packagePart ▸ hcut.shorter
  · have hne : n.toList ≠ [] := fun h' => h (String.toList_eq_nil_iff.1 h')
    simpa [packagePart_of_notMem hdot] using List.length_pos_iff.2 hne

theorem packagePart_le (n : Name) : n.packagePart.toList.length ≤ n.toList.length := by
  by_cases h : n = ""
  · subst h
    exact Nat.le_refl _
  · exact Nat.le_of_lt (packagePart_lt h)

end Name

end SymbolTable
