/-
What encloses a name.

A name that is asked for has a parent: the outer class of a nested class,
the package of any other class, the parent of a package. Going from parent
to parent never gets to a longer name, and the name of a class begins with
those of the classes around it. The simple name and the source name of what
is entered under a name are read off the name as well.
-/
import Mathlib.Logic.Relation
import SymbolTable.Proofs.NameFacts
import SymbolTable.World

namespace SymbolTable

namespace Request

/-- The qualified name that is asked for. -/
def name : Request → Name
  | cls flat => flat
  | package full => full

/-- What directly encloses a name; nothing encloses the root package. -/
def parent? : Request → Option Request
  | cls flat =>
    match (flat.enclosing '$').head? with
    | some outer => some (cls outer)
    | none => some (package flat.packagePart)
  | package full => if full = "" then none else some (package full.packagePart)

/-- The last part of a name. -/
def simpleName : Request → Name
  | cls flat => if '$' ∈ flat.toList then flat.lastPart '$' else flat.lastPart '.'
  | package full => full.lastPart '.'

/-- The name in source text. -/
def sourceName : Request → Name
  | cls flat => flat.dotted
  | package full => full

/-- What is entered under a name. -/
def kind : Request → SymbolKind
  | cls _ => .cls
  | package _ => .package

/-- `r` is `q`, or it is around it. -/
abbrev EnclosedBy : Request → Request → Prop := Relation.ReflTransGen fun q r => q.parent? = some r

theorem parent?_top {flat : Name} (h : flat.enclosing '$' = []) :
    (cls flat).parent? = some (package flat.packagePart) := by
  simp [parent?, h]

theorem parent?_nested {flat outer : Name} (h : (flat.enclosing '$').head? = some outer) :
    (cls flat).parent? = some (cls outer) := by
  simp [parent?, h]

theorem parent?_package {full : Name} (h : full ≠ "") :
    (package full).parent? = some (package full.packagePart) := by
  simp [parent?, h]

theorem parent?_root : (package "").parent? = none := rfl

theorem simpleName_top {flat : Name} (h : flat.enclosing '$' = []) :
    (cls flat).simpleName = flat.lastPart '.' := by
  simp [simpleName, Name.notMem_of_enclosing h]

theorem simpleName_nested {flat outer : Name} (h : (flat.enclosing '$').head? = some outer) :
    (cls flat).simpleName = flat.lastPart '$' := by
  simp [simpleName, Name.mem_of_head?_enclosing h]

/-- A parent's name is no longer. -/
theorem name_parent?_le {q r : Request} (h : q.parent? = some r) :
    r.name.toList.length ≤ q.name.toList.length := by
  cases q with
  | cls flat =>
    cases hflat : (flat.enclosing '$').head? with
    | none =>
      rw [parent?_top (List.head?_eq_none_iff.1 hflat), Option.some.injEq] at h
      exact h ▸ Name.packagePart_le flat
    | some outer =>
      rw [parent?_nested hflat, Option.some.injEq] at h
      exact h ▸ Nat.le_of_lt (Name.shorter_of_head?_enclosing hflat)
  | package full =>
    by_cases hfull : full = ""
    · simp [hfull, parent?_root] at h
    · rw [parent?_package hfull, Option.some.injEq] at h
      exact h ▸ Name.packagePart_le full

theorem EnclosedBy.name_le {q r : Request} (h : q.EnclosedBy r) :
    r.name.toList.length ≤ q.name.toList.length := by
  induction h with
  | refl => exact Nat.le_refl _
  | tail _ hstep ih => exact Nat.le_trans (name_parent?_le hstep) ih

/-- Only a class is directly inside a class, and its name goes on from that of the outer class. -/
theorem parent?_eq_cls {r : Request} {outer : Name} (h : r.parent? = some (.cls outer)) :
    ∃ flat inner, r = .cls flat ∧ flat.Cut '$' outer inner := by
  cases r with
  | cls flat =>
    cases hflat : (flat.enclosing '$').head? with
    | none => simp [parent?_top (List.head?_eq_none_iff.1 hflat)] at h
    | some o =>
      obtain ⟨outer', inner, hcut⟩ := Name.exists_cut (Name.mem_of_head?_enclosing hflat)
      obtain rfl : o = outer := by simpa [parent?_nested hflat] using h
      obtain rfl : outer' = o := by simpa [hcut.enclosing] using hflat
      exact ⟨flat, inner, rfl, hcut⟩
  | package full =>
    by_cases hfull : full = ""
    · simp [hfull, parent?_root] at h
    · simp [parent?_package hfull] at h

/-- The name of a class begins with the name of any class around it. -/
theorem EnclosedBy.isPrefix {q : Request} {outer : Name} (h : q.EnclosedBy (.cls outer)) :
    outer.toList <+: q.name.toList := by
  generalize hr : Request.cls outer = r at h
  induction h generalizing outer with
  | refl =>
    subst hr
    exact List.prefix_rfl
  | tail _ hstep ih =>
    subst hr
    obtain ⟨flat, inner, rfl, hcut⟩ := parent?_eq_cls hstep
    have houter : outer.toList <+: flat.toList := ⟨_, hcut.1.symm⟩
    exact houter.trans (ih rfl)

end Request

end SymbolTable
