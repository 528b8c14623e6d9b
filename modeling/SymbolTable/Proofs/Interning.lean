/-
Numbering names through shared pools.

A pool keeps texts under keys. What is relied on is said of one step
(`Pool.Lawful`): a text that is there is found again, a new one gets the next
key, and no other text or key is concerned. From there it is shown of whole
runs that a pool lists the texts it has seen, each once and in the order of
first appearance (`Lists`), so that a key and its text determine each other.

An interner is a handle on a pool: its clones are handles on the same one. Of
all calls through an interner and its clones, in whatever order, the keys that
they hand out are tracked together with the pool (`Tracks`); the numbers run
from one to the number of distinct texts and are never taken back.
-/
import Mathlib.Data.Finset.Card
import SymbolTable.NameTable
import SymbolTable.Proofs.Histories

namespace SymbolTable

/-! ## Pools -/

/-- What a pool is relied on for, one step at a time. -/
structure Pool.Lawful {σ : Type} (P : Pool σ) : Prop where
  len_new : P.len P.new = 0
  get?_new : ∀ n, P.get? P.new n = none
  resolve?_new : ∀ k, P.resolve? P.new k = none
  /-- A text that is there is found again. -/
  intern_old : ∀ {pool n k}, P.get? pool n = some k → P.intern pool n = (k, pool)
  /-- Keys are allotted in order. -/
  key_fresh : ∀ {pool n}, P.get? pool n = none → (P.intern pool n).1 = ⟨P.len pool⟩
  len_fresh : ∀ {pool n}, P.get? pool n = none → P.len (P.intern pool n).2 = P.len pool + 1
  get?_fresh : ∀ {pool n}, P.get? pool n = none → ∀ m,
    P.get? (P.intern pool n).2 m = if m = n then some (P.intern pool n).1 else P.get? pool m
  resolve?_fresh : ∀ {pool n}, P.get? pool n = none → ∀ k,
    P.resolve? (P.intern pool n).2 k = if k = (P.intern pool n).1 then some n else P.resolve? pool k

theorem idxOf?_concat {α : Type} [DecidableEq α] {l : List α} {a : α} (h : a ∉ l) (b : α) :
    (l ++ [a]).idxOf? b = if b = a then some l.length else l.idxOf? b := by
  rw [List.idxOf?, List.findIdx?_append, ← List.idxOf?]
  by_cases hb : b = a
  · subst hb
    simp [List.idxOf?_eq_none_iff.2 h]
  · simp [hb, Ne.symm hb]

theorem NameTable.key?_push {t : NameTable} {n : Name} (h : t.key? n = none) (m : Name) :
    NameTable.key? ⟨t.texts.push n⟩ m = if m = n then some ⟨t.size⟩ else t.key? m := by
  obtain ⟨⟨texts⟩⟩ := t
  have hnew : n ∉ texts := by simpa [key?] using h
  simp only [key?, size, List.push_toArray, List.idxOf?_toArray, idxOf?_concat hnew]
  split <;> rfl

/-- The name table is as good a pool as any. -/
theorem NameTable.lawful_pool : NameTable.pool.Lawful where
  len_new := rfl
  get?_new _ := by simp [pool, key?, empty]
  resolve?_new _ := rfl
  intern_old {t n k} h := by
    have h' : t.key? n = some k := h
    simp [pool, intern, h']
  key_fresh {t n} h := by
    have h' : t.key? n = none := h
    simp [pool, intern, h']
  len_fresh {t n} h := by
    have h' : t.key? n = none := h
    simp [pool, intern, h', size]
  get?_fresh {t n} h m := by
    have h' : t.key? n = none := h
    simpa [pool, intern, h'] using key?_push h' m
  resolve?_fresh {t n} h k := by
    have h' : t.key? n = none := h
    obtain ⟨i⟩ := k
    simp [pool, intern, h', text?, size, Array.getElem?_push]

/-! ## Texts by first appearance -/

/-- The key of a text, if the texts in `seen` are numbered by first appearance. -/
def keyIn (seen : List Name) (n : Name) : Option Key := (seen.eraseDups.idxOf? n).map Key.mk

/-- The text of a key in that numbering. -/
def textIn (seen : List Name) (k : Key) : Option Name := seen.eraseDups[k.index]?

section

variable {seen : List Name} {n : Name} {k : Key}

theorem keyIn_isSome_iff : (keyIn seen n).isSome ↔ n ∈ seen := by
  simp [keyIn, List.isSome_idxOf?]

theorem keyIn_eq_some_iff : keyIn seen n = some k ↔ textIn seen k = some n := by
  obtain ⟨i⟩ := k
  simp only [keyIn, textIn, Option.map_eq_some_iff, Key.mk.injEq, exists_eq_right,
    List.idxOf?_eq_some_iff, List.getElem?_eq_some_iff]
  constructor
  · rintro ⟨hi, hn, -⟩
    exact ⟨hi, by simpa using hn⟩
  · rintro ⟨hi, hn⟩
    refine ⟨hi, by simpa using hn, fun j hj hjn => ?_⟩
    have hji := (nodup_eraseDups seen).getElem_inj_iff.1 (hjn.trans hn.symm)
    exact Nat.lt_irrefl _ (hji ▸ hj)

theorem keyIn_concat (h : n ∉ seen) (m : Name) : keyIn (seen ++ [n]) m =
    if m = n then some ⟨seen.eraseDups.length⟩ else keyIn seen m := by
  have hnew : n ∉ seen.eraseDups := fun hn => h (List.mem_eraseDups.1 hn)
  rw [keyIn, eraseDups_concat, if_neg h, idxOf?_concat hnew]
  split <;> rfl

theorem textIn_concat (h : n ∉ seen) (k : Key) : textIn (seen ++ [n]) k =
    if k = ⟨seen.eraseDups.length⟩ then some n else textIn seen k := by
  obtain ⟨i⟩ := k
  simp only [textIn, eraseDups_concat, if_neg h, Key.mk.injEq, List.getElem?_append]
  rcases Nat.lt_trichotomy i seen.eraseDups.length with hi | hi | hi
  · simp [hi, Nat.ne_of_lt hi]
  · simp [hi]
  · have hout : seen.eraseDups[i]? = none := List.getElem?_eq_none (Nat.le_of_lt hi)
    have hlast : [n][i - seen.eraseDups.length]? = none :=
      List.getElem?_eq_none (Nat.sub_pos_of_lt hi)
    rw [if_neg (Nat.lt_asymm hi), if_neg (Nat.ne_of_gt hi), hlast, hout]

theorem textIn_append (h : textIn seen k = some n) (more : List Name) :
    textIn (seen ++ more) k = some n := by
  rw [textIn, List.eraseDups_append, List.getElem?_append_left (List.getElem?_eq_some_iff.1 h).1]
  exact h

end

namespace Pool

variable {σ : Type} {P : Pool σ} {pool : σ} {seen : List Name} {n : Name} {k : Key}

/-- The pool has what was seen: each text once, in the order of first appearance. -/
structure Lists (P : Pool σ) (pool : σ) (seen : List Name) : Prop where
  len_eq : P.len pool = seen.eraseDups.length
  get?_eq : ∀ n, P.get? pool n = keyIn seen n
  resolve?_eq : ∀ k, P.resolve? pool k = textIn seen k

theorem Lawful.lists_new (hP : P.Lawful) : P.Lists P.new [] :=
  ⟨hP.len_new, hP.get?_new, hP.resolve?_new⟩

theorem Lists.get?_eq_some_iff (h : P.Lists pool seen) :
    P.get? pool n = some k ↔ P.resolve? pool k = some n := by
  rw [h.get?_eq, h.resolve?_eq, keyIn_eq_some_iff]

theorem Lists.get?_isSome_iff (h : P.Lists pool seen) : (P.get? pool n).isSome ↔ n ∈ seen := by
  rw [h.get?_eq, keyIn_isSome_iff]

theorem Lists.mem_of_get? (h : P.Lists pool seen) (hget : P.get? pool n = some k) : n ∈ seen :=
  h.get?_isSome_iff.1 (by rw [hget]; rfl)

theorem Lists.notMem_of_get? (h : P.Lists pool seen) (hget : P.get? pool n = none) : n ∉ seen :=
  fun hn => by simpa [hget] using h.get?_isSome_iff.2 hn

theorem Lists.index_lt (h : P.Lists pool seen) (hk : P.resolve? pool k = some n) :
    k.index < P.len pool := by
  rw [h.resolve?_eq] at hk
  rw [h.len_eq]
  exact (List.getElem?_eq_some_iff.1 hk).1

theorem Lists.intern (h : P.Lists pool seen) (hP : P.Lawful) (n : Name) :
    P.Lists (P.intern pool n).2 (seen ++ [n]) := by
  cases hget : P.get? pool n with
  | some k =>
    have hsame : (seen ++ [n]).eraseDups = seen.eraseDups := by
      rw [eraseDups_concat, if_pos (h.mem_of_get? hget)]
    rw [hP.intern_old hget]
    constructor
    · rw [hsame, h.len_eq]
    · intro m
      rw [keyIn, hsame, h.get?_eq, keyIn]
    · intro k
      rw [textIn, hsame, h.resolve?_eq, textIn]
  | none =>
    have hnew := h.notMem_of_get? hget
    constructor
    · rw [hP.len_fresh hget, h.len_eq, eraseDups_concat, if_neg hnew, List.length_append]
      rfl
    · intro m
      rw [hP.get?_fresh hget, hP.key_fresh hget, keyIn_concat hnew, h.len_eq, h.get?_eq]
    · intro k
      rw [hP.resolve?_fresh hget, hP.key_fresh hget, textIn_concat hnew, h.len_eq, h.resolve?_eq]

/-- The key that a text is entered under is the one it has from then on. -/
theorem Lists.key_intern (h : P.Lists pool seen) (hP : P.Lawful) (n : Name) :
    keyIn (seen ++ [n]) n = some (P.intern pool n).1 := by
  rw [← (h.intern hP n).get?_eq]
  cases hget : P.get? pool n with
  | some k => rw [hP.intern_old hget, hget]
  | none => rw [hP.get?_fresh hget, if_pos rfl]

/-! ## Calls -/

inductive Call where
  | intern (n : Name)
  | get (n : Name)
  | append (k : Key) (suffix : String)
  deriving DecidableEq

/-- The key that answers a call, and the pool after it. A key without a text cannot be appended
to. -/
def call (P : Pool σ) (pool : σ) : Call → Option Key × σ
  | .intern n => (some (P.intern pool n).1, (P.intern pool n).2)
  | .get n => (P.get? pool n, pool)
  | .append k suffix =>
    match P.append pool k suffix with
    | some (k, pool) => (some k, pool)
    | none => (none, pool)

/-- The text that a call asks for, the texts in `seen` being there. -/
def Call.asked? (seen : List Name) : Call → Option Name
  | .intern n | .get n => some n
  | .append k suffix => (textIn seen k).map (· ++ suffix)

def Call.entered? (seen : List Name) : Call → Option Name
  | .get _ => none
  | c => c.asked? seen

def Call.sees (seen : List Name) (c : Call) : List Name := seen ++ (c.entered? seen).toList

/-- The key that has to answer a call: that of the text it asks for. -/
def Call.answer? (seen : List Name) (c : Call) : Option Key :=
  (c.asked? seen).bind (keyIn (c.sees seen))

/-- The texts entered by calls, one after the other. -/
def seenIn (past : List Call) : List Name := past.foldl Call.sees []

theorem seenIn_append (past new : List Call) : ∃ more, seenIn (past ++ new) = seenIn past ++ more := by
  induction new using List.reverseRecOn with
  | nil => exact ⟨[], by rw [List.append_nil, List.append_nil]⟩
  | append_singleton new c ih =>
    obtain ⟨more, hmore⟩ := ih
    refine ⟨more ++ (c.entered? (seenIn (past ++ new))).toList, ?_⟩
    rw [← List.append_assoc, seenIn, List.foldl_concat, ← seenIn, ← List.append_assoc, ← hmore]
    rfl

theorem append_of_resolve? (h : P.resolve? pool k = some n) (suffix : String) :
    P.append pool k suffix = some (P.intern pool (n ++ suffix)) := by
  rw [append, h]
  rfl

theorem call_append (h : P.resolve? pool k = some n) (suffix : String) :
    P.call pool (.append k suffix) = P.call pool (.intern (n ++ suffix)) := by
  simp only [call, append_of_resolve? h]

theorem call_append_of_none (h : P.resolve? pool k = none) (suffix : String) :
    P.call pool (.append k suffix) = (none, pool) := by
  simp [call, append, h]

/-- A call is answered as it has to be, and the pool has what it had and what the call enters. -/
theorem Lists.call (h : P.Lists pool seen) (hP : P.Lawful) (c : Call) :
    (P.call pool c).1 = c.answer? seen ∧ P.Lists (P.call pool c).2 (c.sees seen) := by
  have hintern : ∀ n, (P.call pool (.intern n)).1 = Call.answer? seen (.intern n) ∧
      P.Lists (P.call pool (.intern n)).2 (Call.sees seen (.intern n)) := fun n =>
    ⟨(h.key_intern hP n).symm, h.intern hP n⟩
  cases c with
  | intern n => exact hintern n
  | get n =>
    have hsees : Call.sees seen (.get n) = seen := List.append_nil seen
    rw [Call.answer?, hsees]
    exact ⟨h.get?_eq n, h⟩
  | append k suffix =>
    cases hk : P.resolve? pool k with
    | some n =>
      rw [call_append hk]
      have htext : textIn seen k = some n := (h.resolve?_eq k).symm.trans hk
      simpa only [Call.answer?, Call.sees, Call.entered?, Call.asked?, htext, Option.map_some] using
        hintern (n ++ suffix)
    | none =>
      rw [call_append_of_none hk]
      have htext : textIn seen k = none := (h.resolve?_eq k).symm.trans hk
      simpa [Call.answer?, Call.sees, Call.entered?, Call.asked?, htext] using h

/-! ## What a pool comes to -/

/-- The pool numbers the texts in `seen`, and keeps to it. -/
structure Numbers (P : Pool σ) (pool : σ) (seen : List Name) : Prop where
  len_eq : P.len pool = seen.toFinset.card
  /-- Texts are numbered by first appearance. -/
  resolve?_eq : ∀ k, P.resolve? pool k = seen.eraseDups[k.index]?
  resolve?_isSome_iff : ∀ k, (P.resolve? pool k).isSome ↔ 1 ≤ k.number ∧ k.number ≤ P.len pool
  get?_isSome_iff : ∀ n, (P.get? pool n).isSome ↔ n ∈ seen
  get?_eq_some_iff : ∀ n k, P.get? pool n = some k ↔ P.resolve? pool k = some n
  resolve?_intern : ∀ n, P.resolve? (P.intern pool n).2 (P.intern pool n).1 = some n
  intern_resolve? : ∀ k n, P.resolve? pool k = some n → P.intern pool n = (k, pool)
  append_seen : ∀ k n suffix, P.resolve? pool k = some n → n ++ suffix ∈ seen →
    ∃ k', P.append pool k suffix = some (k', pool) ∧ P.resolve? pool k' = some (n ++ suffix)
  append_empty : ∀ k n, P.resolve? pool k = some n → P.append pool k "" = some (k, pool)

theorem Lists.len_eq_card (h : P.Lists pool seen) : P.len pool = seen.toFinset.card := by
  have hsame : seen.toFinset = seen.eraseDups.toFinset := by
    ext n
    simp
  rw [hsame, List.toFinset_card_of_nodup (nodup_eraseDups seen), h.len_eq]

theorem Lists.intern_resolve? (h : P.Lists pool seen) (hP : P.Lawful)
    (hk : P.resolve? pool k = some n) : P.intern pool n = (k, pool) :=
  hP.intern_old (h.get?_eq_some_iff.2 hk)

theorem Lists.numbers (h : P.Lists pool seen) (hP : P.Lawful) : P.Numbers pool seen where
  len_eq := h.len_eq_card
  resolve?_eq := h.resolve?_eq
  resolve?_isSome_iff k := by
    rw [h.resolve?_eq, h.len_eq, textIn, isSome_getElem?, Key.number]
    omega
  get?_isSome_iff _ := h.get?_isSome_iff
  get?_eq_some_iff _ _ := h.get?_eq_some_iff
  resolve?_intern n := by
    rw [(h.intern hP n).resolve?_eq, ← keyIn_eq_some_iff, h.key_intern hP n]
  intern_resolve? _ _ := h.intern_resolve? hP
  append_seen k n suffix hk hseen := by
    obtain ⟨k', hk'⟩ := Option.isSome_iff_exists.1 (h.get?_isSome_iff.2 hseen)
    refine ⟨k', ?_, h.get?_eq_some_iff.1 hk'⟩
    rw [append_of_resolve? hk, hP.intern_old hk']
  append_empty k n hk := by
    rw [append_of_resolve? hk, String.append_empty, h.intern_resolve? hP hk]

end Pool

open Pool

/-! ## Interners -/

/-- A pool, and the keys that were handed out of it so far. -/
structure Issuer (σ : Type) where
  pool : σ
  handed : List Key

namespace Issuer

variable {σ : Type} {P : Pool σ} {s : Issuer σ} {seen : List Name} {n : Name} {k : Key}

def new (P : Pool σ) : Issuer σ := ⟨P.new, []⟩

def call (P : Pool σ) (s : Issuer σ) (c : Call) : Issuer σ :=
  ⟨(P.call s.pool c).2, s.handed ++ (P.call s.pool c).1.toList⟩

/-- The pool has what was seen, and its keys were first handed out in their order. -/
structure Tracks (P : Pool σ) (s : Issuer σ) (seen : List Name) : Prop where
  lists : P.Lists s.pool seen
  handed : s.handed.eraseDups = (List.range seen.eraseDups.length).map Key.mk

theorem tracks_new (hP : P.Lawful) : (new P).Tracks P [] := ⟨hP.lists_new, rfl⟩

theorem Tracks.mem_handed (h : s.Tracks P seen) : k ∈ s.handed ↔ k.index < P.len s.pool := by
  rw [← List.mem_eraseDups, h.handed, h.lists.len_eq, List.mem_map]
  constructor
  · rintro ⟨i, hi, rfl⟩
    exact List.mem_range.1 hi
  · intro hk
    exact ⟨k.index, List.mem_range.2 hk, rfl⟩

theorem Tracks.again (h : s.Tracks P seen) (hk : P.resolve? s.pool k = some n) :
    (Issuer.mk s.pool (s.handed ++ [k])).Tracks P seen where
  lists := h.lists
  handed := by
    have hmem : k ∈ s.handed := h.mem_handed.2 (h.lists.index_lt hk)
    rw [eraseDups_concat, if_pos hmem]
    exact h.handed

theorem Tracks.intern (h : s.Tracks P seen) (hP : P.Lawful) (n : Name) :
    (s.call P (.intern n)).Tracks P (seen ++ [n]) := by
  refine ⟨h.lists.intern hP n, ?_⟩
  -- a key that is handed out again adds nothing; a fresh one comes after all the others
  have hcall : (s.call P (.intern n)).handed = s.handed ++ [(P.intern s.pool n).1] := rfl
  rw [hcall]
  cases hget : P.get? s.pool n with
  | some k =>
    rw [hP.intern_old hget, eraseDups_concat seen, if_pos (h.lists.mem_of_get? hget)]
    exact (h.again (h.lists.get?_eq_some_iff.1 hget)).handed
  | none =>
    have hnew := h.lists.notMem_of_get? hget
    have hfirst : (⟨P.len s.pool⟩ : Key) ∉ s.handed := fun hmem =>
      Nat.lt_irrefl _ (h.mem_handed.1 hmem)
    rw [hP.key_fresh hget, eraseDups_concat, if_neg hfirst, h.handed, eraseDups_concat, if_neg hnew,
      h.lists.len_eq, List.length_append, List.length_singleton, List.range_succ, List.map_append]
    rfl

theorem Tracks.call (h : s.Tracks P seen) (hP : P.Lawful) (c : Call) :
    (s.call P c).Tracks P (c.sees seen) := by
  refine ⟨(h.lists.call hP c).2, ?_⟩
  cases c with
  | intern n => exact (h.intern hP n).handed
  | get n =>
    have hsees : Call.sees seen (.get n) = seen := List.append_nil seen
    have hcall : (s.call P (.get n)).handed = s.handed ++ (P.get? s.pool n).toList := rfl
    rw [hsees, hcall]
    cases hget : P.get? s.pool n with
    | none => rw [Option.toList_none, List.append_nil, h.handed]
    | some k => exact (h.again (h.lists.get?_eq_some_iff.1 hget)).handed
  | append k suffix =>
    cases hk : P.resolve? s.pool k with
    | none =>
      have htext : textIn seen k = none := (h.lists.resolve?_eq k).symm.trans hk
      simpa [Issuer.call, call_append_of_none hk, Call.sees, Call.entered?, Call.asked?, htext] using
        h.handed
    | some n =>
      have htext : textIn seen k = some n := (h.lists.resolve?_eq k).symm.trans hk
      have hsees : Call.sees seen (.append k suffix) = seen ++ [n ++ suffix] := by
        simp [Call.sees, Call.entered?, Call.asked?, htext]
      rw [hsees, Issuer.call, call_append hk]
      exact (h.intern hP (n ++ suffix)).handed

/-- The keys that were handed out are numbered from one on, without a gap. -/
theorem Tracks.numbers_handed (h : s.Tracks P seen) :
    s.handed.eraseDups.map Key.number = List.range' 1 (P.len s.pool) := by
  rw [h.handed, h.lists.len_eq, List.map_map, List.range'_eq_map_range]
  exact List.map_congr_left fun i _ => Nat.add_comm i 1

theorem tracks_calls (hP : P.Lawful) (past : List Call) :
    (past.foldl (call P) (new P)).Tracks P (seenIn past) := by
  induction past using List.reverseRecOn with
  | nil => exact tracks_new hP
  | append_singleton past c ih =>
    rw [List.foldl_concat, seenIn, List.foldl_concat]
    exact ih.call hP c

theorem resolve?_calls (hP : P.Lawful) {past : List Call}
    (h : P.resolve? (past.foldl (call P) (new P)).pool k = some n) (new : List Call) :
    P.resolve? ((past ++ new).foldl (call P) (.new P)).pool k = some n := by
  obtain ⟨more, hmore⟩ := seenIn_append past new
  rw [(tracks_calls hP past).lists.resolve?_eq] at h
  rw [(tracks_calls hP (past ++ new)).lists.resolve?_eq, hmore]
  exact textIn_append h more

/-- The interners after the steps `us`, with what is behind them. -/
def interners (P : Pool σ) (us : List (Use Call)) : Handles (Issuer σ) :=
  Handles.run (call P) (new P) us

theorem interners_append (P : Pool σ) (us more : List (Use Call)) :
    interners P (us ++ more) = more.foldl (Handles.use (call P) (new P)) (interners P us) :=
  Handles.run_append ..

theorem interners_concat (P : Pool σ) (us : List (Use Call)) (u : Use Call) :
    interners P (us ++ [u]) = (interners P us).use (call P) (new P) u :=
  interners_append P us [u]

/-- Calls through an interner and its clones, in any order and with other interners about, on any
pool that does what it is relied on for. The distinct texts that they enter are numbered from one on
by first appearance, and no other key is handed out. Keys and texts determine each other: entering a
text gives a key that reads back as it, entering what a key reads gives the key again, and looking up
finds what was entered and nothing else. Every call is answered by what was seen before it, through
whichever of them it goes; looking up changes no pool, and appending is the same step as entering the
longer text. A clone is one of them for ever, and a key never changes its text. -/
theorem bijection_through_clones (hP : P.Lawful) {us : List (Use Call)} {i : Nat}
    (hi : i < (interners P us).refs.length) :
    ∃ past s, (Handles.pasts us).behind? i = some past ∧ (interners P us).behind? i = some s ∧
      s.handed.eraseDups.map Key.number = List.range' 1 (P.len s.pool) ∧
      P.Numbers s.pool (seenIn past) ∧
      (∀ j c, (interners P us).refs[j]? = (interners P us).refs[i]? →
        (interners P (us ++ [.call j c])).behind? i = some (s.call P c) ∧
          (s.call P c).handed = s.handed ++ (c.answer? (seenIn past)).toList) ∧
      (∀ j n, (interners P (us ++ [.call j (.get n)])).map Issuer.pool =
        (interners P us).map Issuer.pool) ∧
      (∀ j k n suffix, (interners P us).refs[j]? = (interners P us).refs[i]? →
        P.resolve? s.pool k = some n → interners P (us ++ [.call j (.append k suffix)]) =
          interners P (us ++ [.call i (.intern (n ++ suffix))])) ∧
      (∀ more, (interners P (us ++ .clone i :: more)).behind? (interners P us).refs.length =
        (interners P (us ++ .clone i :: more)).behind? i) ∧
      ∀ more, ∃ s', (interners P (us ++ more)).behind? i = some s' ∧
        ∀ k n, P.resolve? s.pool k = some n → P.resolve? s'.pool k = some n := by
  have hi' : i < (Handles.pasts us).refs.length := by
    rwa [interners, Handles.run_eq] at hi
  obtain ⟨past, hpast⟩ := Handles.exists_behind? hi'
  have hs : (interners P us).behind? i = some (past.foldl (call P) (new P)) :=
    Handles.behind?_run hpast
  -- what is behind the handle depends on its own past only, so one run of calls is enough
  have htracks := tracks_calls hP past
  refine ⟨past, _, hpast, hs, htracks.numbers_handed, htracks.lists.numbers hP, ?_, ?_, ?_, ?_, ?_⟩
  · intro j c hj
    rw [interners_concat]
    refine ⟨Handles.behind?_call hj hs c, ?_⟩
    rw [Issuer.call, (htracks.lists.call hP c).1]
  · intro j n
    rw [interners_concat]
    exact Handles.map_use_call (fun _ => rfl) _ j
  · intro j k n suffix hj hk
    rw [interners_concat, interners_concat]
    refine Handles.use_call_congr hj hs ?_
    rw [Issuer.call, call_append hk, Issuer.call]
  · intro more
    rw [interners_append]
    exact Handles.behind?_clone more (List.getElem?_eq_getElem hi)
  · intro more
    obtain ⟨new, hnew⟩ := Handles.behind?_pasts_append more hpast
    exact ⟨_, Handles.behind?_run hnew, fun k n hk => resolve?_calls hP hk new⟩

/-- Of three interners, the last is a clone of the first. Through the one goes a text, through the
other what is appended to it. -/
def sharedCalls : List (Use Call) :=
  [.create, .create, .call 0 (.intern "int"), .clone 0, .call 2 (.append ⟨0⟩ "Value"),
    .call 1 (.intern "other"), .call 0 (.intern ""), .call 2 (.append ⟨0⟩ ""),
    .call 0 (.get "void")]

/-- The clone has the texts that went through either, and the key of the appended one is good for
ever. -/
theorem bijection_through_one_clone : NameTable.pool.Lawful ∧
    2 < (interners NameTable.pool sharedCalls).refs.length ∧
      ∃ s, (interners NameTable.pool sharedCalls).behind? 2 = some s ∧ s.pool.size = 3 ∧
        s.handed.eraseDups.map Key.number = [1, 2, 3] ∧ s.pool.key? "other" = none ∧
        s.pool.intern "intValue" = (⟨1⟩, s.pool) ∧ s.pool.append ⟨1⟩ "" = some (⟨1⟩, s.pool) ∧
        (s.call NameTable.pool (.append ⟨2⟩ "int")).handed = s.handed ++ [⟨0⟩] ∧
        ∀ more, ∃ s', (interners NameTable.pool (sharedCalls ++ more)).behind? 2 = some s' ∧
          s'.pool.text? ⟨1⟩ = some "intValue" := by
  have hi : 2 < (interners NameTable.pool sharedCalls).refs.length := by decide
  obtain ⟨past, s, hpast, hs, hhanded, hnumbers, hcall, -, -, -, hkept⟩ :=
    bijection_through_clones NameTable.lawful_pool hi
  obtain rfl : [.intern "int", .append ⟨0⟩ "Value", .intern "", .append ⟨0⟩ "", .get "void"] =
      past := Option.some.inj hpast
  have hsize : s.pool.size = 3 := hnumbers.len_eq.trans (by decide)
  have hother : s.pool.key? "other" = none := by
    rw [← Option.not_isSome_iff_eq_none]
    exact fun h => absurd ((hnumbers.get?_isSome_iff "other").1 h) (by decide)
  have htext : s.pool.text? ⟨1⟩ = some "intValue" := (hnumbers.resolve?_eq ⟨1⟩).trans (by decide)
  have hanswer := (hcall 2 (.append ⟨2⟩ "int") rfl).2
  have hlen : NameTable.pool.len s.pool = 3 := hsize
  rw [hlen] at hhanded
  refine ⟨NameTable.lawful_pool, hi, s, hs, hsize, hhanded, hother,
    hnumbers.intern_resolve? ⟨1⟩ _ htext, hnumbers.append_empty ⟨1⟩ _ htext, hanswer, fun more => ?_⟩
  obtain ⟨s', hs', htexts⟩ := hkept more
  exact ⟨s', hs', htexts ⟨1⟩ _ htext⟩

end Issuer

end SymbolTable
