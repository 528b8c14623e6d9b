/-
The name table: every distinct text a compilation has seen, numbered by
first appearance.

A text is entered once. Its key is its position, and keys never change:
entering a text that is present finds the old key. An interner needs no more
of it than a few operations, so it is written for any pool that has them
(`Pool`), and the name table is one.
-/
import SymbolTable.Name

namespace SymbolTable

/-- A position in a name table. -/
structure Key where
  index : Nat
  deriving DecidableEq, Repr

/-- Keys are counted from one. -/
def Key.number (k : Key) : Nat := k.index + 1

def Key.text (k : Key) : String := s!"Spur({k.number})"

/-- The operations of a pool of texts. -/
structure Pool (σ : Type) where
  new : σ
  /-- The key of a text, which is entered if it is new. -/
  intern : σ → Name → Key × σ
  /-- The key of a text that was entered before. -/
  get? : σ → Name → Option Key
  resolve? : σ → Key → Option Name
  len : σ → Nat

/-- The key of the text of `k` followed by `suffix`. -/
def Pool.append {σ : Type} (P : Pool σ) (pool : σ) (k : Key) (suffix : String) : Option (Key × σ) :=
  (P.resolve? pool k).map fun n => P.intern pool (n ++ suffix)

structure NameTable where
  texts : Array Name
  deriving DecidableEq

namespace NameTable

def empty : NameTable := ⟨#[]⟩

def size (t : NameTable) : Nat := t.texts.size

def isEmpty (t : NameTable) : Bool := t.texts.isEmpty

/-- The key of a text that was entered before. -/
def key? (t : NameTable) (n : Name) : Option Key := (t.texts.idxOf? n).map (⟨·⟩)

def text? (t : NameTable) (k : Key) : Option Name := t.texts[k.index]?

/-- The key of `n`, entering it at the end if it is new. -/
def intern (t : NameTable) (n : Name) : Key × NameTable :=
  match t.key? n with
  | some k => (k, t)
  | none => (⟨t.size⟩, ⟨t.texts.push n⟩)

/-- Name tables as a pool. -/
def pool : Pool NameTable where
  new := empty
  intern := intern
  get? := key?
  resolve? := text?
  len := size

def append (t : NameTable) (k : Key) (suffix : String) : Option (Key × NameTable) :=
  pool.append t k suffix

/-- The table after seeing `n`. -/
def see (t : NameTable) (n : Name) : NameTable := (t.intern n).2

def seeAll (t : NameTable) (ns : List Name) : NameTable := ns.foldl see t

def describe (t : NameTable) : String := s!"Interner \x7b len: {t.size} \x7d"

end NameTable

end SymbolTable
