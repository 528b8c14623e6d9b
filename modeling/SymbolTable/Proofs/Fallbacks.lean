/-
Stand-ins put behind a class one after another.

A class that has a definition completes as if nothing stood behind it,
whether the definition can be read or not. A class without one becomes what
the first stand-in makes of it, and the later ones never show. A class that
is not pending takes no stand-in.
-/
import SymbolTable.Proofs.Definitions

namespace SymbolTable

namespace Completer

variable {c : Completer} {flat : Name} {fs : List Completer}

/-- The completer with each of `fs` put behind it in turn. -/
def behind (c : Completer) (fs : List Completer) : Completer := fs.foldl .orElse c

theorem Reads.behind (h : c.Reads flat) (hfs : ∀ f ∈ fs, f.IsStandin) : (c.behind fs).Reads flat := by
  induction fs generalizing c with
  | nil => exact h
  | cons f fs ih =>
    have hf : f.IsStandin := hfs f List.mem_cons_self
    exact ih (.orElse h hf) fun g hg => hfs g (List.mem_cons_of_mem f hg)

/-- A stand-in takes effect only if none was there before it. -/
theorem standin?_behind (c : Completer) (fs : List Completer) :
    (c.behind fs).standin? = c.standin?.or fs.head? := by
  induction fs generalizing c with
  | nil => simp [Completer.behind]
  | cons f fs ih =>
    refine (ih (.orElse c f)).trans ?_
    cases hc : c.standin? <;> simp [standin?, hc]

end Completer

namespace Store

variable {s : Store} {id : SymbolId} {c : Completer}

/-- Puts each of `fs` behind the pending completer of a class, in the order of the list. -/
def fallBackAll (s : Store) (id : SymbolId) (fs : List Completer) : Store :=
  fs.foldl (fun s f => s.fallBack id f) s

theorem fallBack_of_done (h : s.completer? id = none) (f : Completer) : s.fallBack id f = s := by
  simp only [fallBack, h]

theorem fallBackAll_of_done (h : s.completer? id = none) (fs : List Completer) :
    s.fallBackAll id fs = s := by
  induction fs with
  | nil => rfl
  | cons f fs ih =>
    rw [fallBackAll, List.foldl_cons, fallBack_of_done h]
    exact ih

theorem completer?_fallBack (h : s.completer? id = some c) (f : Completer) :
    (s.fallBack id f).completer? id = some (.orElse c f) := by
  obtain ⟨info, hinfo, -⟩ := Option.bind_eq_some_iff.1 h
  have hc := classInfo?_mapClass hinfo fun info => { info with completer := some (.orElse c f) }
  have hset : s.fallBack id f = s.setCompleter id (.orElse c f) := by simp only [fallBack, h]
  rw [hset, setCompleter, completer?, hc, Option.bind_some]

theorem completer?_fallBackAll (h : s.completer? id = some c) (fs : List Completer) :
    (s.fallBackAll id fs).completer? id = some (c.behind fs) := by
  induction fs generalizing s c with
  | nil => exact h
  | cons f fs ih => exact ih (completer?_fallBack h f)

theorem update_update (s : Store) (id : SymbolId) (f g : Symbol → Symbol) :
    (s.update id f).update id g = s.update id (g ∘ f) := by
  simp only [update, Store.mk.injEq, and_self, and_true]
  refine Array.ext_getElem? fun i => ?_
  simp only [Array.getElem?_modify]
  split
  · simp
  · rfl

/-- The completer is all that putting a stand-in behind a class changes. -/
theorem dropCompleter_fallBack (s : Store) (id : SymbolId) (f : Completer) :
    (s.fallBack id f).dropCompleter id = s.dropCompleter id := by
  unfold fallBack
  split
  · rfl
  · rw [setCompleter, dropCompleter, dropCompleter, update_update]
    congr 1
    funext sym
    rcases sym with ⟨m, name, owner, ty, sentinel, body⟩
    cases body <;> rfl

theorem dropCompleter_fallBackAll (s : Store) (id : SymbolId) (fs : List Completer) :
    (s.fallBackAll id fs).dropCompleter id = s.dropCompleter id := by
  induction fs generalizing s with
  | nil => rfl
  | cons f fs ih => exact (ih (s.fallBack id f)).trans (s.dropCompleter_fallBack id f)

end Store

namespace World

open Store

variable {w : World} {id : SymbolId} {c : Completer} {flat : Name} {fs : List Completer}

/-- The world in which each of `fs` was put behind a class. -/
def withStandins (w : World) (id : SymbolId) (fs : List Completer) : World :=
  { w with store := w.store.fallBackAll id fs }

/-- What a class that reads its definition becomes with `f` standing in for it. -/
def completedBy (w : World) (r : Resolver) (id : SymbolId) (flat : Name) (f : Option Completer) :
    Completed × World :=
  match w.path.get? flat, f with
  | none, some f => (.ok (), { w with store := (w.store.dropCompleter id).standIn id f })
  | _, _ =>
    match { w with store := w.store.dropCompleter id }.readDefinition r flat id with
    | (.ok (), w) => (.ok (), w)
    | (.error failure, w) =>
      (.error failure, { w with store := w.store.recordFailure id failure.kind })

/-- Of the completer of a class only the stand-in that takes effect matters. -/
theorem complete_eq_completedBy (hp : w.store.completer? id = some c) (hr : c.Reads flat)
    (r : Resolver) : w.complete r id = w.completedBy r id flat c.standin? := by
  obtain ⟨info, hc⟩ := classInfo?_dropCompleter hp
  obtain ⟨nested, hw⟩ := complete_of_pending hp r
  rw [hw, hr.run (w := { w with store := w.store.dropCompleter id }) hc]
  unfold completedBy
  cases w.path.get? flat <;> cases c.standin? <;> rfl

theorem completedBy_of_found {d : ClassDef} (h : w.path.get? flat = some d) (r : Resolver)
    (f : Option Completer) : w.completedBy r id flat f = w.completedBy r id flat none := by
  simp only [completedBy, h]

theorem complete_withStandins (hp : w.store.completer? id = some (.classFile flat))
    (hfs : ∀ f ∈ fs, f.IsStandin) (r : Resolver) :
    (w.withStandins id fs).complete r id = w.completedBy r id flat fs.head? := by
  have hp' : (w.withStandins id fs).store.completer? id = some ((Completer.classFile flat).behind fs) :=
    completer?_fallBackAll hp fs
  rw [complete_eq_completedBy hp' (Completer.Reads.classFile.behind hfs), Completer.standin?_behind]
  simp only [completedBy, withStandins, dropCompleter_fallBackAll]
  rfl

/-- How a class that is read from its definition completes once each of `fs` was put behind it. -/
structure FallsBack (w : World) (r : Resolver) (id : SymbolId) (flat : Name)
    (fs : List Completer) : Prop where
  readable : ∀ d, w.path.get? flat = some d → d.corrupt = none →
    (w.withStandins id fs).complete r id = w.complete r id
  corrupt : ∀ d reason, w.path.get? flat = some d → d.corrupt = some reason →
    (w.complete r id).1 = .error ⟨id, flat, .badClassFile reason⟩ ∧
      (w.withStandins id fs).complete r id = w.complete r id
  missing : w.path.get? flat = none → fs = [] →
    ((w.withStandins id fs).complete r id).1 = .error ⟨id, flat, .notFound⟩
  /-- The first stand-in is the one that shows. -/
  stoodFor : ∀ f rest, w.path.get? flat = none → fs = f :: rest →
    ((w.withStandins id fs).complete r id).1 = .ok () ∧
      (w.withStandins id fs).complete r id = (w.withStandins id [f]).complete r id

/-- Stand-ins do not show behind a definition, the first one alone counts where there is none, and
a class that is not pending takes none. -/
theorem fallsBack_first (hp : w.store.completer? id = some (.classFile flat))
    (hfs : ∀ f ∈ fs, f.IsStandin) (r : Resolver) : w.FallsBack r id flat fs ∧
      ∀ other, w.store.completer? other = none → w.withStandins other fs = w := by
  -- both completions are the same function of what stands in, so only that has to be compared
  have hall := complete_withStandins hp hfs r
  have hnone : w.complete r id = w.completedBy r id flat none := complete_eq_completedBy hp .classFile r
  refine ⟨⟨?_, ?_, ?_, ?_⟩, ?_⟩
  · intro d hd _
    rw [hall, hnone, completedBy_of_found hd]
  · intro d reason hd hreason
    refine ⟨?_, by rw [hall, hnone, completedBy_of_found hd]⟩
    simp [hnone, completedBy, readDefinition, hd, hreason]
  · rintro hd rfl
    simp [hall, completedBy, readDefinition, hd]
  · rintro f rest hd rfl
    have hf : ∀ g ∈ [f], g.IsStandin := fun g hg =>
      hfs g (List.mem_singleton.1 hg ▸ List.mem_cons_self)
    rw [hall, complete_withStandins hp hf r]
    exact ⟨by simp [completedBy, hd], rfl⟩
  · intro other hdone
    rw [withStandins, fallBackAll_of_done hdone]

/-- A class of the core library that nothing defines, with a wrapper put behind it and then an
interface. -/
theorem fallsBack_box_before_interface : ∃ (t : Table) (w : World) (id : SymbolId),
    Table.build ⟨true, .v17⟩ Messages.english ClassPath.resolver .empty = (.ok t, w) ∧
      let st := (Session.mk t w).step (.resolveClass "raven.language.Anything")
      let fs : List Completer :=
        [.box ⟨.absent, .absent, "valueOf", "anyValue", t.methodClass⟩, .emptyInterface .absent]
      st.store.completer? id = some (.classFile "raven.language.Anything") ∧
        (∀ f ∈ fs, f.IsStandin) ∧
        st.world.FallsBack ClassPath.resolver id "raven.language.Anything" fs := by
  obtain ⟨t, w, hbuild, hfurnished⟩ :=
    Table.building_furnished ⟨true, .v17⟩ Messages.english .empty
  have hnew : w.store.class? "raven.language.Anything" = none :=
    hfurnished.class?_core rfl (by decide)
  obtain ⟨id, -, hp⟩ := (Session.Reachable.built hbuild).sound.completer?_resolveClass hnew
  have hfs : ∀ f ∈ [Completer.box ⟨.absent, .absent, "valueOf", "anyValue", t.methodClass⟩,
      .emptyInterface .absent], f.IsStandin :=
    List.forall_mem_cons.2 ⟨.box _, List.forall_mem_singleton.2 (.emptyInterface _)⟩
  exact ⟨t, w, id, hbuild, hp, hfs, (fallsBack_first hp hfs ClassPath.resolver).1⟩

end World

end SymbolTable
