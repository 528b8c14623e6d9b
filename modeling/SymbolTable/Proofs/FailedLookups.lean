/-
Lookups against a class that failed.

A completion that fails changes nothing but the class itself: the completer
is gone, the reason is noted, and a class without a scope gets an erroneous
one. A scope that is there stays as it is. So the lookups against the class
answer after the failure as they did before, and they all come back empty
only if the class had no entry to show.
-/
import SymbolTable.Proofs.Retention
import SymbolTable.Proofs.Scopes

namespace SymbolTable

/-- Reads definitions of the class path and stands in for missing ones, in any arrangement. -/
inductive Completer.Plain : Completer → Prop
  | done : Plain .done
  | classFile (flat : Name) : Plain (.classFile flat)
  | standin {f : Completer} (standin : f.IsStandin) : Plain f
  | orElse {base fallback : Completer} (first : Plain base) (second : Plain fallback) :
      Plain (.orElse base fallback)

/-- The completer of the symbol, if one is pending, is plain. -/
def Symbol.Plain (sym : Symbol) : Prop :=
  ∀ info c, sym.body = .cls info → info.completer = some c → c.Plain

namespace Symbol.Plain

variable {sym : Symbol}

theorem of_body {sym' : Symbol} (h : sym.Plain) (hb : sym'.body = sym.body) : sym'.Plain :=
  fun info c hinfo hc => h info c (hb ▸ hinfo) hc

theorem mapClass (h : sym.Plain) {f : ClassInfo → ClassInfo}
    (hf : ∀ info c, (f info).completer = some c → info.completer = some c ∨ c.Plain) :
    (sym.mapClass f).Plain := by
  intro info c hinfo hc
  cases hb : sym.body with
  | cls info₀ =>
    simp only [Symbol.mapClass, hb, SymbolBody.cls.injEq] at hinfo
    subst hinfo
    rcases hf info₀ c hc with hc | hc
    · exact h info₀ c hb hc
    · exact hc
  | _ => simp [Symbol.mapClass, hb] at hinfo

theorem mapMembers (h : sym.Plain) (f : Scope → Scope) : (sym.mapMembers f).Plain := by
  intro info c hinfo hc
  cases hb : sym.body with
  | cls info₀ =>
    simp only [Symbol.mapMembers, hb, SymbolBody.cls.injEq] at hinfo
    subst hinfo
    exact h info₀ c hb hc
  | _ => simp [Symbol.mapMembers, hb] at hinfo

end Symbol.Plain

namespace Store

variable {s s' : Store} {id : SymbolId}

/-- Every completer that is pending is plain. -/
def Plain (s : Store) : Prop := ∀ id sym, s.symbol? id = some sym → sym.Plain

namespace Plain

theorem completer? (h : s.Plain) {c : Completer} (hc : s.completer? id = some c) : c.Plain := by
  obtain ⟨sym, info, hs, hb, hc⟩ := completer?_eq_some.1 hc
  exact h id sym hs info c hb hc

theorem addSymbol (h : s.Plain) {sym : Symbol} (hsym : sym.Plain) : (s.addSymbol sym).2.Plain := by
  intro id sym' hs
  rw [symbol?_addSymbol] at hs
  split at hs
  · exact Option.some.inj hs ▸ hsym
  · exact h id sym' hs

theorem extend (h : s.Plain) (t : Ty) {sym : Symbol} (hsym : sym.Plain) : (s.extend t sym).Plain :=
  addSymbol (s := (s.addType t).2) (fun id sym hs => h id sym hs) hsym

theorem update (h : s.Plain) (id : SymbolId) {f : Symbol → Symbol}
    (hf : ∀ sym, sym.Plain → (f sym).Plain) : (s.update id f).Plain := by
  intro x sym hs
  rw [symbol?_update] at hs
  split at hs
  · obtain ⟨sym₀, hs₀, rfl⟩ := Option.map_eq_some_iff.1 hs
    exact hf sym₀ (h x sym₀ hs₀)
  · exact h x sym hs

theorem mapClass (h : s.Plain) (id : SymbolId) {f : ClassInfo → ClassInfo}
    (hf : ∀ info c, (f info).completer = some c → info.completer = some c ∨ c.Plain) :
    (s.update id (Symbol.mapClass f)).Plain :=
  h.update id fun _ hsym => hsym.mapClass hf

theorem mapMembers (h : s.Plain) (id : SymbolId) (f : Scope → Scope) :
    (s.update id (Symbol.mapMembers f)).Plain :=
  h.update id fun _ hsym => hsym.mapMembers f

theorem addModifiers (h : s.Plain) (id : SymbolId) (m : Modifiers) : (s.addModifiers id m).Plain :=
  h.update id fun _ hsym => Symbol.Plain.of_body hsym rfl

theorem updateClass (h : s.Plain) {f : ClassInfo → ClassInfo} (hs : s.updateClass id f = .ok s')
    (hf : ∀ info c, (f info).completer = some c → info.completer = some c ∨ c.Plain) :
    s'.Plain := by
  unfold Store.updateClass at hs
  split at hs
  · obtain rfl := Except.ok.inj hs
    exact h.mapClass id hf
  · cases hs

theorem withMethod (h : s.Plain) (modifiers : Modifiers) (name : Name) (g : Signature)
    (owner mc : SymbolId) : (s.withMethod modifiers name g owner mc).Plain :=
  (h.extend _ (by simp [Symbol.Plain])).mapMembers owner _

theorem standIn (h : s.Plain) (id : SymbolId) (f : Completer) : (s.standIn id f).Plain := by
  have hbelow : ∀ m object, ((s.addModifiers id m).below id object).Plain := fun m object =>
    (h.addModifiers id m).mapClass id fun _ _ => .inl
  cases f with
  | emptyInterface object => exact hbelow _ object
  | box plan => exact ((hbelow _ plan.object).withMethod _ _ _ _ _).withMethod _ _ _ _ _
  | _ => exact h

theorem filled (h : s.Plain) (id : SymbolId) (modifiers : Modifiers) (supertype : Option TypeId)
    (interfaces : List TypeId) : (s.filled id modifiers supertype interfaces).Plain :=
  (h.addModifiers id modifiers).mapClass id fun _ _ => .inl

theorem setCompleter (h : s.Plain) (id : SymbolId) {c : Completer} (hc : c.Plain) :
    (s.setCompleter id c).Plain :=
  h.mapClass id fun _ _ he => .inr (Option.some.inj he ▸ hc)

theorem fallBack (h : s.Plain) (id : SymbolId) {f : Completer} (hf : f.Plain) :
    (s.fallBack id f).Plain := by
  unfold Store.fallBack
  split
  · exact h
  · next c hc => exact h.setCompleter id (.orElse (h.completer? hc) hf)

theorem dropCompleter (h : s.Plain) (id : SymbolId) : (s.dropCompleter id).Plain :=
  h.mapClass id fun _ _ he => nomatch he

theorem recordFailure (h : s.Plain) (id : SymbolId) (kind : FailureKind) :
    (s.recordFailure id kind).Plain := h.mapClass id fun _ _ => .inl

end Plain

theorem entryStable_plain : EntryStable Plain where
  package _ _ _ h := Plain.extend h _ (by simp [Symbol.Plain])
  cls _ flat _ h := Plain.extend h _ fun info c hinfo hc => by
    simp only [Symbol.entered, SymbolBody.cls.injEq] at hinfo
    subst hinfo
    exact Option.some.inj hc ▸ .classFile flat
  member owner _ _ h := h.mapMembers owner _

end Store

open Store

/-! ## A plain completer that fails -/

namespace Completer

variable {w w' : World} {id : SymbolId} {info : ClassInfo} {r : Resolver}
  {nested : SymbolId → World → Completed × World} {c : Completer}

/-- Reading a definition fails before anything is changed. -/
theorem readDefinition_error (hr : r.Retains) (hc : w.store.classInfo? id = some info) {flat : Name}
    {f : CompletionFailure} (h : w.readDefinition r flat id = (.error f, w')) : w' = w := by
  unfold World.readDefinition at h
  split at h
  · exact (congrArg Prod.snd h).symm
  · next d _ =>
    split at h
    · exact (congrArg Prod.snd h).symm
    · have hretains := (hr.askTypes d.supertype.toList w).trans (hr.askTypes d.interfaces _)
      obtain ⟨info', hc'⟩ := hretains.classInfo? hc
      simp [World.fillIn_eq hc'] at h

/-- A plain completer that fails leaves the world as it was. -/
theorem Plain.run_error (h : c.Plain) (hr : r.Retains) (hc : w.store.classInfo? id = some info)
    {given : Option CompletionFailure} {f : CompletionFailure}
    (hrun : c.run r nested given id w = (.error f, w')) : w' = w := by
  induction h generalizing given f w' with
  | done => cases hrun
  | classFile flat => exact readDefinition_error hr hc hrun
  | standin hstandin => rw [hstandin.run hc] at hrun; cases hrun
  | orElse _ _ ih ih' =>
    simp only [Completer.run] at hrun
    split at hrun
    · cases hrun
    · next failure w₁ hbase =>
      obtain rfl := ih hbase
      split at hrun
      · exact ih' hrun
      · exact (congrArg Prod.snd hrun).symm

/-- What a plain completer leaves pending is plain. -/
theorem Plain.run_plain (h : c.Plain) (hr : r.Retains)
    (hplain : ∀ (flat : Name) (w : World), w.store.Plain → (r.resolveClass flat w).2.store.Plain)
    (hc : w.store.classInfo? id = some info) (hw : w.store.Plain) (given : Option CompletionFailure) :
    (c.run r nested given id w).2.store.Plain := by
  induction h generalizing given with
  | done => exact hw
  | classFile flat =>
    simp only [Completer.run, World.readDefinition]
    split
    · exact hw
    · next d _ =>
      split
      · exact hw
      · have hretains := (hr.askTypes d.supertype.toList w).trans (hr.askTypes d.interfaces _)
        obtain ⟨info', hc'⟩ := hretains.classInfo? hc
        have hasked := r.askTypes_keeps (P := Store.Plain) hplain d.interfaces
          (r.askTypes_keeps hplain d.supertype.toList hw)
        simp only [World.fillIn_eq hc']
        exact hasked.filled id _ _ _
  | standin hstandin => rw [hstandin.run hc]; exact hw.standIn id _
  | orElse hbase _ ih ih' =>
    have hb := ih none
    simp only [Completer.run]
    generalize hout : Completer.run r nested _ none id w = out at hb ⊢
    obtain ⟨failure | _, w₁⟩ := out
    · obtain rfl := hbase.run_error hr hc hout
      simp only
      split
      · exact ih' (some failure)
      · exact hw
    · exact hb

end Completer

namespace World

variable {w w' : World} {id : SymbolId} {r : Resolver} {f : CompletionFailure}

/-- A completion that fails notes the failure and changes nothing else. -/
theorem complete_error (hw : w.store.Plain) (hr : r.Retains)
    (h : w.complete r id = (.error f, w')) :
    (∃ c, w.store.completer? id = some c) ∧
      w' = { w with store := (w.store.dropCompleter id).recordFailure id f.kind } := by
  cases hp : w.store.completer? id with
  | none => rw [complete_of_done hp] at h; cases h
  | some c =>
    refine ⟨⟨c, rfl⟩, ?_⟩
    obtain ⟨info, hc⟩ := classInfo?_dropCompleter hp
    obtain ⟨nested, hrun⟩ := complete_of_pending hp r
    rw [hrun] at h
    split at h
    · cases h
    · next failure w₁ hfailed =>
      obtain rfl := (hw.completer? hp).run_error hr hc hfailed
      cases h
      rfl

theorem complete_plain (hw : w.store.Plain) (id : SymbolId) :
    (w.complete ClassPath.resolver id).2.store.Plain := by
  cases hp : w.store.completer? id with
  | none => rw [complete_of_done hp]; exact hw
  | some c =>
    obtain ⟨info, hc⟩ := classInfo?_dropCompleter hp
    obtain ⟨nested, hrun⟩ := complete_of_pending hp ClassPath.resolver
    have hran : (c.run ClassPath.resolver nested none id
        { w with store := w.store.dropCompleter id }).2.store.Plain :=
      (hw.completer? hp).run_plain ClassPath.retains_resolver
        (fun flat _ => entryStable_plain.enterClass flat) hc (hw.dropCompleter id) none
    rw [hrun]
    split
    · next h => rw [h] at hran; exact hran
    · next h => rw [h] at hran; exact hran.recordFailure id _

end World

/-! ## Acts that leave plain completers only -/

/-- The completers that come with an act are plain. -/
def Act.Plain : Act → Prop
  | .construct (.symbol sym) => sym.Plain
  | .setCompleter _ c => c.Plain
  | .fallBack _ f => f.Plain
  | _ => True

theorem Store.Plain.construct {s : Store} (h : s.Plain) {c : Construct}
    (hc : (Act.construct c).Plain) : (s.construct c).Plain := by
  cases c with
  | symbol sym => exact h.addSymbol hc
  | package name full owner => exact h.extend _ (by simp [Symbol.Plain])
  | classOf modifiers name full flat ty owner =>
    exact h.addSymbol (by simp +contextual [Symbol.Plain, ClassInfo.named, eq_comm])
  | cls modifiers name full flat owner =>
    exact h.extend _ (by simp +contextual [Symbol.Plain, ClassInfo.named, eq_comm])
  | method modifiers name g owner mc => exact h.extend _ (by simp [Symbol.Plain])
  | operator name g code owner mc => exact h.extend _ (by simp [Symbol.Plain])
  | field modifiers name ty owner => exact h.addSymbol (by simp [Symbol.Plain])
  | _ => exact fun id sym hs => h id sym hs

namespace World

variable {w : World}

theorem attempted_plain {e : Except TableError Store} (hw : w.store.Plain)
    (he : ∀ s, e = .ok s → s.Plain) : (w.attempted e).store.Plain := by
  cases e with
  | ok s => exact he s rfl
  | error e => exact hw

theorem act_plain (hw : w.store.Plain) {a : Act} (ha : a.Plain) : (w.act a).store.Plain := by
  cases a with
  | construct c => exact hw.construct ha
  | resetMembers id => exact attempted_plain hw fun s hs => hw.updateClass hs fun _ _ => .inl
  | setErrorMembers id => exact attempted_plain hw fun s hs => hw.updateClass hs fun _ _ => .inl
  | ensureMembers id => exact attempted_plain hw fun s hs => hw.updateClass hs fun _ _ => .inl
  | enterMember owner member =>
    refine attempted_plain hw fun s hs => ?_
    unfold Store.enterMember at hs
    split at hs
    · exact Except.ok.inj hs ▸ hw.mapMembers owner _
    · cases hs
  | setCompleter id c => exact hw.setCompleter id ha
  | fallBack id f => exact hw.fallBack id ha
  | define flat d => exact hw
  | undefine flat => exact hw
  | resolveClass flat =>
    exact entryStable_plain.enterClass (w := { w.see flat with requests := _ }) flat hw
  | resolvePackage full =>
    exact entryStable_plain.enterPackage (w := { w.see full with requests := _ }) full hw
  | complete id => exact complete_plain hw id

theorem acts_plain (hw : w.store.Plain) {as : List Act} (has : ∀ a ∈ as, a.Plain) :
    (w.acts as).store.Plain := by
  induction as generalizing w with
  | nil => exact hw
  | cons a as ih =>
    have ha : a.Plain := has a List.mem_cons_self
    exact ih (act_plain hw ha) fun b hb => has b (List.mem_cons_of_mem a hb)

theorem empty_plain : empty.store.Plain := by
  intro id sym hs
  simp [empty, Store.empty, Store.symbol?] at hs

end World

/-! ## The scope of a failed class -/

namespace Store

variable {s : Store} {id : SymbolId} {c : Completer}

theorem classInfo?_failed (h : s.completer? id = some c) (kind : FailureKind) :
    ∃ info, s.classInfo? id = some info ∧
      ((s.dropCompleter id).recordFailure id kind).classInfo? id =
        some { info with
          completer := none
          failure := some kind
          members := some (info.members.getD (.erroneous id)) } := by
  obtain ⟨info, hinfo, -⟩ := Option.bind_eq_some_iff.1 h
  have hdropped : (s.dropCompleter id).classInfo? id = some { info with completer := none } :=
    classInfo?_mapClass hinfo _
  exact ⟨info, hinfo, classInfo?_mapClass hdropped _⟩

theorem failure?_failed (h : s.completer? id = some c) (kind : FailureKind) :
    ((s.dropCompleter id).recordFailure id kind).failure? id = some kind := by
  obtain ⟨info, -, hfailed⟩ := classInfo?_failed h kind
  rw [failure?, hfailed, Option.bind_some]

theorem members?_failed (h : s.completer? id = some c) (kind : FailureKind) :
    ((s.dropCompleter id).recordFailure id kind).members? id =
      some ((s.members? id).getD (.erroneous id)) := by
  obtain ⟨info, hinfo, hfailed⟩ := classInfo?_failed h kind
  rw [members?_of_classInfo? hfailed, members?_of_classInfo? hinfo]

/-- A failure hides no entry and shows none. -/
theorem lookupMember_failed (h : s.completer? id = some c) (kind : FailureKind) (name : Name) :
    ((s.dropCompleter id).recordFailure id kind).lookupMember id name = s.lookupMember id name := by
  simp only [lookupMember, members?_failed h]
  cases s.members? id with
  | none => exact Scope.lookup_of_isError rfl name
  | some scope => rfl

theorem lookupMember_eq_nil_iff (s : Store) (id : SymbolId) :
    (∀ name, s.lookupMember id name = []) ↔
      ∀ scope, s.members? id = some scope → scope.isError = true ∨ scope.size = 0 := by
  unfold lookupMember
  cases s.members? id with
  | none => simp
  | some scope => simpa using scope.lookup_eq_nil_iff

end Store

/-- After a completion that failed the class has the reason of the failure, its scope is the one it
had or else an erroneous one, and every lookup against it answers as before the completion. All of
them come back empty if and only if the class had no scope with an entry to show. -/
theorem World.lookups_after_failure {as : List Act} (has : ∀ a ∈ as, a.Plain) {r : Resolver}
    (hr : r.Retains) {id : SymbolId} {f : CompletionFailure} {w' : World}
    (hfail : (World.empty.acts as).complete r id = (.error f, w')) :
    w'.store.failure? id = some f.kind ∧
      w'.store.members? id = some (((World.empty.acts as).store.members? id).getD (.erroneous id)) ∧
      (∀ name, w'.store.lookupMember id name = (World.empty.acts as).store.lookupMember id name) ∧
      ((∀ name, w'.store.lookupMember id name = []) ↔
        ∀ scope, (World.empty.acts as).store.members? id = some scope →
          scope.isError = true ∨ scope.size = 0) := by
  have hplain := acts_plain empty_plain has
  generalize World.empty.acts as = w at hplain hfail ⊢
  obtain ⟨⟨c, hp⟩, rfl⟩ := complete_error hplain hr hfail
  have hlookup := lookupMember_failed hp f.kind
  refine ⟨failure?_failed hp f.kind, members?_failed hp f.kind, hlookup, ?_⟩
  simp only [hlookup]
  exact w.store.lookupMember_eq_nil_iff id

/-- A class that is pending and has a member `x`. -/
def Act.openedEarly : List Act :=
  [.construct (.cls .empty "C" "p.C" "p.C" ⟨0⟩), .setCompleter ⟨0⟩ (.classFile "p.C"),
    .ensureMembers ⟨0⟩, .construct (.field .empty "x" .absent ⟨0⟩), .enterMember ⟨0⟩ ⟨1⟩]

theorem Act.openedEarly_plain : ∀ a ∈ openedEarly, a.Plain := by
  intro a ha
  simp only [openedEarly, List.mem_cons, List.not_mem_nil, or_false] at ha
  rcases ha with rfl | rfl | rfl | rfl | rfl
  · trivial
  · exact .classFile "p.C"
  all_goals trivial

/-- An entry made into an erroneous scope is not shown, before the failure or after it. -/
theorem World.lookups_after_failure_erroneous :
    ∃ w', (World.empty.acts (Act.openedEarly ++ [.setErrorMembers ⟨0⟩, .enterMember ⟨0⟩ ⟨1⟩])).complete
        ClassPath.resolver ⟨0⟩ = (.error ⟨⟨0⟩, "p.C", .notFound⟩, w') ∧
      w'.store.failure? ⟨0⟩ = some .notFound ∧ ∀ name, w'.store.lookupMember ⟨0⟩ name = [] := by
  have has : ∀ a ∈ Act.openedEarly ++ [.setErrorMembers ⟨0⟩, .enterMember ⟨0⟩ ⟨1⟩], a.Plain := by
    intro a ha
    simp only [List.mem_append, List.mem_cons, List.not_mem_nil, or_false] at ha
    rcases ha with ha | rfl | rfl
    · exact Act.openedEarly_plain a ha
    all_goals trivial
  obtain ⟨w', hfail⟩ : ∃ w', (World.empty.acts (Act.openedEarly ++
      [.setErrorMembers ⟨0⟩, .enterMember ⟨0⟩ ⟨1⟩])).complete ClassPath.resolver ⟨0⟩ =
        (.error ⟨⟨0⟩, "p.C", .notFound⟩, w') := ⟨_, rfl⟩
  obtain ⟨hfailure, -, -, hempty⟩ :=
    World.lookups_after_failure has ClassPath.retains_resolver hfail
  refine ⟨w', hfail, hfailure, hempty.2 fun scope hscope => .inl ?_⟩
  obtain rfl := Option.some.inj hscope
  rfl

/-- The members of a class that were entered before its completion failed are still found. -/
theorem World.member_found_after_failure :
    (∀ a ∈ Act.openedEarly, a.Plain) ∧
      ((World.empty.acts Act.openedEarly).complete ClassPath.resolver ⟨0⟩).1 =
        .error ⟨⟨0⟩, "p.C", .notFound⟩ ∧
      ((World.empty.acts Act.openedEarly).complete ClassPath.resolver ⟨0⟩).2.store.lookupMember ⟨0⟩ "x" =
        [⟨1⟩] :=
  ⟨Act.openedEarly_plain, rfl, rfl⟩

end SymbolTable
