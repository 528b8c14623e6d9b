/-
Checking a session: completing whatever is pending.

The classes to complete are taken by name, so it does not matter in which
order the map of classes lists them. The check is then a run of completions,
and how each of them ends is laid down when the check starts: by the
definition of the class, or by what stands in for it.
-/
import SymbolTable.CommandLine.Execute
import SymbolTable.Proofs.Commutation

namespace SymbolTable

open Store

/-! ## What is pending -/

namespace Store

variable {s : Store} {entries entries' : List (Name × SymbolId)} {n : Name} {id : SymbolId}

theorem mem_pending :
    (n, id) ∈ s.pending entries ↔ (n, id) ∈ entries ∧ (s.completer? id).isSome := by
  rw [pending, (List.mergeSort_perm ..).mem_iff, List.mem_filter]
  simp [isCompleted]

theorem mem_pending_classes : (n, id) ∈ s.pending s.classes.entries ↔
    s.class? n = some id ∧ (s.completer? id).isSome := by
  rw [mem_pending]
  exact and_congr_left fun _ => ⟨OrderedMap.get?_of_mem_entries, OrderedMap.mem_entries_of_get?⟩

theorem pairwise_le_pending (s : Store) (entries : List (Name × SymbolId)) :
    (s.pending entries).Pairwise fun a b => a.1 ≤ b.1 := by
  have htrans : ∀ a b c : Name × SymbolId, decide (a.1 ≤ b.1) = true → decide (b.1 ≤ c.1) = true →
      decide (a.1 ≤ c.1) = true := by
    intro a b c hab hbc
    exact decide_eq_true (String.le_trans (of_decide_eq_true hab) (of_decide_eq_true hbc))
  have htotal : ∀ a b : Name × SymbolId, (decide (a.1 ≤ b.1) || decide (b.1 ≤ a.1)) = true := by
    intro a b
    simpa using String.le_total a.1 b.1
  exact (List.pairwise_mergeSort htrans htotal _).imp of_decide_eq_true

theorem pairwise_lt_pending (s : Store) (h : (entries.map (·.1)).Nodup) :
    (s.pending entries).Pairwise fun a b => a.1 < b.1 := by
  have hnd : ((s.pending entries).map (·.1)).Nodup :=
    ((List.mergeSort_perm ..).map _).nodup_iff.2 (h.sublist (List.filter_sublist.map _))
  refine (s.pairwise_le_pending entries).imp₂ ?_ (List.pairwise_map.1 hnd)
  intro a b hle hne
  by_contra hlt
  exact hne (String.le_antisymm hle (String.not_lt.1 hlt))

/-- The order in which entries are listed does not matter. -/
theorem pending_perm (s : Store) (hp : entries'.Perm entries) (h : (entries.map (·.1)).Nodup) :
    s.pending entries' = s.pending entries := by
  have hperm : (s.pending entries').Perm (s.pending entries) :=
    (List.mergeSort_perm ..).trans ((hp.filter _).trans (List.mergeSort_perm ..).symm)
  have h' : (entries'.map (·.1)).Nodup := (hp.map _).nodup_iff.2 h
  refine hperm.eq_of_pairwise ?_ (s.pairwise_lt_pending h') (s.pairwise_lt_pending h)
  intro a b _ _ hab hba
  exact absurd (String.lt_trans hab hba) (String.lt_irrefl a.1)

theorem Registered.pending_view? (hr : s.Registered) (hc : s.class? n = some id) :
    (s.view? n).map (·.pending) = some (s.completer? id).isSome := by
  obtain ⟨sym, info, hs, hb, -⟩ := hr.cls hc
  have hinfo : s.classInfo? id = some info := classInfo?_eq_some.2 ⟨sym, hs, hb⟩
  rw [view?_eq hc hs hb]
  simp [Store.view, completer?, hinfo]

end Store

theorem Completer.Reads.pending_viewAfter {c : Completer} {flat : Name} (h : c.Reads flat) (s : Store)
    (path : ClassPath) (id : SymbolId) : (c.viewAfter s path flat id).pending = false := by
  unfold Completer.viewAfter
  split
  · split <;> rfl
  · cases hf : c.standin? with
    | none => rfl
    | some f => cases h.isStandin hf <;> rfl

namespace Session

variable {st st' : Session} {ids : List SymbolId}

/-! ## The run of completions -/

/-- Once everything that was pending is completed, what is pending was not registered before. -/
theorem Ran.isSome_completer?_iff (h : st.Ran ids st') (hr : st.Reachable) (hr' : st'.Reachable)
    (hids : ∀ id, id ∈ ids ↔ (st.store.completer? id).isSome) (x : SymbolId) :
    (st'.store.completer? x).isSome ↔
      ∃ n, st'.store.class? n = some x ∧ st.store.class? n = none := by
  have hs := hr.sound.store
  have hs' := hr'.sound.store
  constructor
  · intro hpending
    obtain ⟨c, hc⟩ := Option.isSome_iff_exists.1 hpending
    obtain ⟨n, hn, -⟩ := hs'.phased.pending hc not_false
    refine ⟨n, hn, ?_⟩
    cases hold : st.store.class? n with
    | none => rfl
    | some id =>
      obtain rfl : id = x := Option.some.inj ((h.grown.keeps.cls hold).symm.trans hn)
      have hview := hs'.registered.pending_view? hn
      rw [hpending, h.views n, hold] at hview
      by_cases hid : id ∈ ids
      · obtain ⟨c₀, hc₀⟩ := Option.isSome_iff_exists.1 ((hids id).1 hid)
        obtain ⟨flat, hflat, hreads⟩ := hs.phased.pending hc₀ not_false
        obtain rfl := hs.registered.flat_eq hflat hold
        simp [hid, pending?_eq hs.registered hold hc₀, hreads.pending_viewAfter] at hview
      · simp only [hid, if_false, hs.registered.pending_view? hold, Option.some.injEq] at hview
        exact absurd ((hids id).2 hview) hid
  · rintro ⟨n, hn, hnew⟩
    have hview := hs'.registered.pending_view? hn
    rw [h.views n, hnew, hn] at hview
    simpa [ClassView.unread] using hview.symm

theorem completeAll_eq (st : Session) (l : List (Name × SymbolId)) :
    st.world.completeAll ClassPath.resolver l =
      ((l.zip (st.outcomes (l.map (·.2)))).filterMap fun (p, o) =>
        match o.2 with
        | .error failure => some (p.1, failure.kind)
        | .ok () => none,
      (st.run (l.map fun p => .complete p.2)).world) := by
  induction l generalizing st with
  | nil => rfl
  | cons p l ih =>
    obtain ⟨name, id⟩ := p
    have hrest := ih (st.step (.complete id))
    have hworld : (st.step (.complete id)).world = (st.world.complete ClassPath.resolver id).2 := rfl
    rw [hworld] at hrest
    simp only [World.completeAll, List.map_cons, outcomes, List.zip_cons_cons, List.filterMap_cons]
    cases hout : st.world.complete ClassPath.resolver id with
    | mk o w =>
      rw [hout] at hrest
      cases o with
      | ok _ => exact hrest
      | error failure => exact congrArg (fun q => ((name, failure.kind) :: q.1, q.2)) hrest

/-- How the class of a name will fail to be completed, if it will: its definition is corrupt, or it
has none and nothing stands in for it. -/
def failureFor? (st : Session) (name : Name) (id : SymbolId) : Option FailureKind :=
  match st.world.path.get? name with
  | some d => d.corrupt.map .badClassFile
  | none => if ((st.store.completer? id).bind (·.standin?)).isSome then none else some .notFound

theorem failureFor?_eq {name : Name} {id : SymbolId} {c : Completer}
    (hp : st.store.completer? id = some c) : st.failureFor? name id =
      match c.outcome st.world.path name id with
      | .error failure => some failure.kind
      | .ok () => none := by
  unfold failureFor? Completer.outcome
  cases st.world.path.get? name with
  | none =>
    simp only [hp, Option.bind_some]
    cases c.standin? with
    | none => rfl
    | some f => rfl
  | some d =>
    cases hd : d.corrupt with
    | none => simp [hd]
    | some reason => simp [hd]

/-- The failures of a check are those that are laid down when it starts. -/
theorem Reachable.completeAll_failures (h : st.Reachable) {l : List (Name × SymbolId)}
    (hnd : (l.map (·.2)).Nodup)
    (hp : ∀ p ∈ l, st.store.class? p.1 = some p.2 ∧ (st.store.completer? p.2).isSome) :
    (st.world.completeAll ClassPath.resolver l).1 =
      l.filterMap fun p => (st.failureFor? p.1 p.2).map (p.1, ·) := by
  have hpending : ∀ id ∈ l.map (·.2), (st.store.completer? id).isSome := by
    intro id hid
    obtain ⟨p, hmem, rfl⟩ := List.mem_map.1 hid
    exact (hp p hmem).2
  rw [completeAll_eq, h.outcomes_eq hnd hpending, List.map_map, ← List.map_prod_left_eq_zip,
    List.filterMap_map]
  refine List.filterMap_congr fun p hmem => ?_
  obtain ⟨hclass, hsome⟩ := hp p hmem
  obtain ⟨c, hc⟩ := Option.isSome_iff_exists.1 hsome
  simp only [Function.comp_apply, pending?_eq h.sound.store.registered hclass hc, Option.map_some,
    Option.getD_some, failureFor?_eq hc]
  cases c.outcome st.world.path p.1 p.2 <;> rfl

/-! ## Checks -/

def toComplete (st : Session) : List (Name × SymbolId) := st.store.pending st.store.classes.entries

theorem Reachable.nodup_toComplete (h : st.Reachable) : (st.toComplete.map (·.2)).Nodup := by
  have hlt := st.store.pairwise_lt_pending st.store.classes.distinct
  refine List.pairwise_map.2 (hlt.imp_of_mem fun {a b} ha hb hab heq => ?_)
  -- a class has one name
  have hname := h.sound.store.registered.flat_eq (mem_pending_classes.1 ha).1
    (heq ▸ (mem_pending_classes.1 hb).1)
  exact String.lt_irrefl _ (hname ▸ hab)

theorem Reachable.mem_toComplete_iff (h : st.Reachable) (id : SymbolId) :
    id ∈ st.toComplete.map (·.2) ↔ (st.store.completer? id).isSome := by
  constructor
  · intro hid
    obtain ⟨p, hp, rfl⟩ := List.mem_map.1 hid
    exact (mem_pending_classes.1 hp).2
  · intro hsome
    obtain ⟨c, hc⟩ := Option.isSome_iff_exists.1 hsome
    obtain ⟨flat, hflat, -⟩ := h.sound.store.phased.pending hc not_false
    exact List.mem_map.2 ⟨(flat, id), mem_pending_classes.2 ⟨hflat, hsome⟩, rfl⟩

/-- What a check comes to, if these are the classes it completes. -/
structure Checked (st : Session) (pending : List (Name × SymbolId)) (report : CheckReport)
    (w : World) : Prop where
  mem_iff : ∀ name id, (name, id) ∈ pending ↔
    st.store.class? name = some id ∧ (st.store.completer? id).isSome
  increasing : pending.Pairwise fun a b => a.1 < b.1
  distinct : (pending.map (·.2)).Nodup
  ran : w = (st.run (pending.map fun p => .complete p.2)).world
  count : report.pending = pending.length
  failures : report.failures = pending.filterMap fun p => (st.failureFor? p.1 p.2).map (p.1, ·)
  completed : ∀ name id, st.store.class? name = some id → w.store.isCompleted id = true
  /-- What is pending afterwards was registered meanwhile. -/
  remaining : ∀ id, w.store.isCompleted id = false ↔
    ∃ name, w.store.class? name = some id ∧ st.store.class? name = none

theorem Reachable.checked (h : st.Reachable) :
    st.Checked st.toComplete (st.world.check ClassPath.resolver).1
      (st.world.check ClassPath.resolver).2 := by
  let st' := st.run (st.toComplete.map fun p => .complete p.2)
  have hworld : (st.world.check ClassPath.resolver).2 = st'.world :=
    congrArg Prod.snd (st.completeAll_eq st.toComplete)
  have hpending : ∀ id ∈ st.toComplete.map (·.2), (st.store.completer? id).isSome :=
    fun id => (h.mem_toComplete_iff id).1
  have hran : st.Ran (st.toComplete.map (·.2)) st' := by
    have hran := h.ran h.nodup_toComplete hpending
    rwa [List.map_map] at hran
  have hremaining := hran.isSome_completer?_iff h (h.run _) h.mem_toComplete_iff
  have hnot : ∀ id, st'.store.isCompleted id = false ↔ (st'.store.completer? id).isSome := by
    simp [isCompleted]
  refine ⟨fun name id => mem_pending_classes, st.store.pairwise_lt_pending st.store.classes.distinct,
    h.nodup_toComplete, hworld, rfl,
    h.completeAll_failures h.nodup_toComplete fun p hp => mem_pending_classes.1 hp, ?_, ?_⟩
  · intro name id hc
    rw [hworld, ← Bool.not_eq_false]
    intro hfalse
    obtain ⟨n, hn, hnew⟩ := (hremaining id).1 ((hnot id).1 hfalse)
    have hflat := (h.run _).sound.store.registered.flat_eq hn (hran.grown.keeps.cls hc)
    simp [hflat, hc] at hnew
  · intro id
    rw [hworld]
    exact (hnot id).trans (hremaining id)

end Session

namespace CommandLine

/-- What a check prints, and its exit code: the number of classes first, then the failures in order,
and last whether there were any. -/
def checkOutcome (count : Nat) : List (Name × FailureKind) → Outcome
  | [] => ⟨0, printed [s!"Completing {count} classes", "", "Success: All classes complete"], ""⟩
  | failure :: rest =>
    let failures := failure :: rest
    ⟨1, printed [s!"Completing {count} classes", ""],
      printed (failures.map (fun (name, kind) => s!"  ✗ {name}: {kind.message}")
        ++ [s!"Failed: {failures.length} classes failed to complete"])
      ++ ("Error: " ++ s!"Check failed with {failures.length} errors" ++ "\n")⟩

theorem runCheck_eq (w : World) : runCheck w =
    checkOutcome (w.check ClassPath.resolver).1.pending (w.check ClassPath.resolver).1.failures := by
  unfold runCheck
  cases w.check ClassPath.resolver with
  | mk report w' =>
    obtain ⟨count, failures⟩ := report
    cases failures with
    | nil => rfl
    | cons failure rest => rfl

end CommandLine

namespace Session

/-- A check completes exactly the registered classes that are pending, each once and by name, in
whatever order the map of classes lists them. It announces their number and reports exactly those
that have a corrupt definition, or none and no stand-in; it succeeds if there are none of these. Of
the classes that are pending afterwards, none was registered before. -/
theorem Reachable.check_exact {st : Session} (h : st.Reachable) : ∃ pending report w,
    st.Checked pending report w ∧
    (∀ entries : List (Name × SymbolId), entries.Perm st.store.classes.entries →
      st.world.checkEntries ClassPath.resolver entries = (report, w)) ∧
    CommandLine.runCheck st.world = CommandLine.checkOutcome pending.length report.failures := by
  have hchecked := h.checked
  refine ⟨_, _, _, hchecked, fun entries hperm => ?_, ?_⟩
  · have hpending : st.world.store.pending entries =
        st.world.store.pending st.world.store.classes.entries :=
      st.store.pending_perm hperm st.store.classes.distinct
    simp only [World.check, World.checkEntries, hpending]
  · rw [CommandLine.runCheck_eq, hchecked.count]

/-- A class whose definition cannot be read is reported, also if the classes are listed the other
way round. -/
theorem check_exact_corrupt : ∃ (t : Table) (w w' : World) (id : SymbolId) (report : CheckReport),
    Table.build ⟨true, .v17⟩ Messages.english ClassPath.resolver .empty = (.ok t, w) ∧
      let st := (Session.mk t w).run [.resolveClass "raven.language.Anything",
        .define "raven.language.Anything" ⟨.empty, none, [], some "truncated"⟩]
      st.Reachable ∧ st.store.class? "raven.language.Anything" = some id ∧
        st.store.isCompleted id = false ∧
        st.world.checkEntries ClassPath.resolver st.store.classes.entries.reverse = (report, w') ∧
        ("raven.language.Anything", .badClassFile "truncated") ∈ report.failures ∧
        (CommandLine.runCheck st.world).exit = 1 ∧ w'.store.isCompleted id = true := by
  obtain ⟨t, w, hbuild, hfurnished⟩ :=
    Table.building_furnished ⟨true, .v17⟩ Messages.english .empty
  have hnew : w.store.class? "raven.language.Anything" = none :=
    hfurnished.class?_core rfl (by decide)
  have hbuilt := Reachable.built hbuild
  obtain ⟨id, hclass, hp⟩ := hbuilt.sound.completer?_resolveClass hnew
  let st := (Session.mk t w).run [.resolveClass "raven.language.Anything",
    .define "raven.language.Anything" ⟨.empty, none, [], some "truncated"⟩]
  have hreach : st.Reachable := hbuilt.run _
  have hd : st.world.path.get? "raven.language.Anything" =
      some ⟨.empty, none, [], some "truncated"⟩ := by
    simp [st, get?_run, definitionAfter, Op.edit?]
  have hcompleter : st.store.completer? id = some (.classFile "raven.language.Anything") := hp
  obtain ⟨pending, report, w', hchecked, hentries, hprints⟩ := hreach.check_exact
  have hmem : ("raven.language.Anything", .badClassFile "truncated") ∈ report.failures := by
    rw [hchecked.failures]
    refine List.mem_filterMap.2 ⟨("raven.language.Anything", id),
      (hchecked.mem_iff _ _).2 ⟨hclass, ?_⟩, ?_⟩
    · exact Option.isSome_iff_exists.2 ⟨_, hcompleter⟩
    · simp [failureFor?, hd]
  have hexit : (CommandLine.runCheck st.world).exit = 1 := by
    rw [hprints]
    cases hfailures : report.failures with
    | nil => simp [hfailures] at hmem
    | cons failure rest => rfl
  have hlazy : st.store.isCompleted id = false := by simp [isCompleted, hcompleter]
  exact ⟨t, w, w', id, report, hbuild, hreach, hclass, hlazy, hentries _ (List.reverse_perm _), hmem,
    hexit, hchecked.completed _ id hclass⟩

end Session

end SymbolTable
