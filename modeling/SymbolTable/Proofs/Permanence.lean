/-
What a session never takes back.

A table is append-only. What a symbol is, `Keeps` keeps already; this module
adds what a symbol may gain: bits of its modifiers, a scope if it had none,
and entries at the end of the overload lists of the scope it has. `Gains`
is shown for the single changes that there are, then for every operation and
every run. The handles of a table never change either, except that the core
library may be loaded, which happens once.
-/
import SymbolTable.Proofs.SelfHosting

namespace SymbolTable

namespace Modifiers

theorem includes_refl (m : Modifiers) : m.includes m := by
  have hself : m ∩ m = m := congrArg Modifiers.mk (UInt64.and_self)
  simp [includes, hself]

theorem includes_union (m m' : Modifiers) : (m ∪ m').includes m := by
  have hbits : (m.bits ||| m'.bits) &&& m.bits = m.bits := by
    refine UInt64.toBitVec_inj.1 (BitVec.eq_of_getElem_eq fun i hi => ?_)
    simpa using Or.inl
  have hinter : (m ∪ m') ∩ m = m := congrArg Modifiers.mk hbits
  simp [includes, hinter]

theorem includes_trans {m m' m'' : Modifiers} (h : m'.includes m) (h' : m''.includes m') :
    m''.includes m := by
  have hm : m' ∩ m = m := of_decide_eq_true h
  have hm' : m'' ∩ m' = m' := of_decide_eq_true h'
  have hassoc : m'' ∩ m' ∩ m = m'' ∩ (m' ∩ m) := congrArg Modifiers.mk (UInt64.and_assoc ..)
  rw [hm', hm] at hassoc
  exact decide_eq_true hassoc.symm

end Modifiers

/-! ## What is gained -/

/-- The scope `sc'` is `sc` with entries added, each after those of its name. -/
structure Scope.Gains (sc sc' : Scope) : Prop where
  owner : sc'.owner = sc.owner
  kind : sc'.kind = sc.kind
  overloads : ∀ n, (sc.groups.get? n).getD [] <+: (sc'.groups.get? n).getD []

/-- The symbol `sym'` is `sym` with modifiers and entries added. -/
structure Symbol.Gains (sym sym' : Symbol) : Prop where
  modifiers : sym'.modifiers.includes sym.modifiers
  members : ∀ sc, sym.members? = some sc → ∃ sc', sym'.members? = some sc' ∧ sc.Gains sc'

/-- Every symbol of `s` is in `s'`, with what it gained. -/
structure Store.Gains (s s' : Store) : Prop where
  symbols : ∀ id sym, s.symbol? id = some sym → ∃ sym', s'.symbol? id = some sym' ∧ sym.Gains sym'

namespace Scope.Gains

theorem refl (sc : Scope) : sc.Gains sc := ⟨rfl, rfl, fun _ => List.prefix_refl _⟩

theorem trans {sc sc' sc'' : Scope} (h : sc.Gains sc') (h' : sc'.Gains sc'') : sc.Gains sc'' where
  owner := h'.owner.trans h.owner
  kind := h'.kind.trans h.kind
  overloads n := (h.overloads n).trans (h'.overloads n)

theorem enter (sc : Scope) (name : Name) (x : SymbolId) : sc.Gains (sc.enter name x) where
  owner := rfl
  kind := rfl
  overloads n := by
    rw [Scope.enter, OrderedMap.get?_insert]
    split
    · next hn =>
      subst hn
      exact List.prefix_append ..
    · exact List.prefix_refl _

end Scope.Gains

namespace Symbol.Gains

variable {sym sym' sym'' : Symbol}

theorem refl (sym : Symbol) : sym.Gains sym :=
  ⟨sym.modifiers.includes_refl, fun sc hsc => ⟨sc, hsc, .refl sc⟩⟩

theorem trans (h : sym.Gains sym') (h' : sym'.Gains sym'') : sym.Gains sym'' where
  modifiers := Modifiers.includes_trans h.modifiers h'.modifiers
  members sc hsc := by
    obtain ⟨sc', hsc', hg⟩ := h.members sc hsc
    obtain ⟨sc'', hsc'', hg'⟩ := h'.members sc' hsc'
    exact ⟨sc'', hsc'', hg.trans hg'⟩

theorem addModifiers (sym : Symbol) (m : Modifiers) :
    sym.Gains { sym with modifiers := sym.modifiers ∪ m } :=
  ⟨sym.modifiers.includes_union m, fun sc hsc => ⟨sc, hsc, .refl sc⟩⟩

/-- A class may change in whatever is not its scope. -/
theorem mapClass {f : ClassInfo → ClassInfo}
    (hf : ∀ info sc, info.members = some sc → (f info).members = some sc) (sym : Symbol) :
    sym.Gains (sym.mapClass f) := by
  rcases sym with ⟨m, name, owner, ty, sentinel, body⟩
  cases body with
  | cls info => exact ⟨m.includes_refl, fun sc hsc => ⟨sc, hf info sc hsc, .refl sc⟩⟩
  | _ => exact .refl _

theorem mapMembers (sym : Symbol) (name : Name) (x : SymbolId) :
    sym.Gains (sym.mapMembers fun scope => scope.enter name x) := by
  rcases sym with ⟨m, simple, owner, ty, sentinel, body⟩
  cases body with
  | cls info =>
    refine ⟨m.includes_refl, fun sc hsc => ⟨sc.enter name x, ?_, .enter sc name x⟩⟩
    exact congrArg (Option.map fun scope : Scope => scope.enter name x) hsc
  | package info =>
    refine ⟨m.includes_refl, fun sc hsc => ⟨sc.enter name x, ?_, .enter sc name x⟩⟩
    exact congrArg (Option.map fun scope : Scope => scope.enter name x) hsc
  | _ => exact .refl _

end Symbol.Gains

namespace Store

variable {s s' s'' : Store}

theorem Gains.refl (s : Store) : s.Gains s := ⟨fun _ sym hs => ⟨sym, hs, .refl sym⟩⟩

theorem Gains.trans (h : s.Gains s') (h' : s'.Gains s'') : s.Gains s'' := by
  refine ⟨fun id sym hs => ?_⟩
  obtain ⟨sym', hs', hg⟩ := h.symbols id sym hs
  obtain ⟨sym'', hs'', hg'⟩ := h'.symbols id sym' hs'
  exact ⟨sym'', hs'', hg.trans hg'⟩

/-- Nothing happens to the symbols that were there. -/
theorem Gains.of_old (h : ∀ id, s.HasSymbol id → s'.symbol? id = s.symbol? id) : s.Gains s' :=
  ⟨fun id sym hs => ⟨sym, (h id (hasSymbol_of_symbol? hs)).trans hs, .refl sym⟩⟩

theorem gains_extend (s : Store) (t : Ty) (sym : Symbol) : s.Gains (s.extend t sym) :=
  .of_old fun _ => symbol?_extend_old

theorem gains_update (s : Store) (id : SymbolId) {f : Symbol → Symbol}
    (hf : ∀ sym : Symbol, sym.Gains (f sym)) : s.Gains (s.update id f) := by
  refine ⟨fun x sym hs => ?_⟩
  rw [symbol?_update, hs]
  split
  · exact ⟨f sym, rfl, hf sym⟩
  · exact ⟨sym, rfl, .refl sym⟩

/-! ## Entering names -/

theorem gains_withClass (s : Store) (simple flat : Name) (owner : SymbolId) :
    s.Gains (s.withClass simple flat owner) :=
  .of_old fun id hid => by rw [symbol?_withClass, if_neg hid.ne_next]

theorem Enters.gains (he : Enters s s') : s.Gains s' := by
  cases he with
  | package _ _ _ => exact .of_old fun id hid => by rw [symbol?_withPackage, if_neg hid.ne_next]
  | top _ _ _ =>
    exact (s.gains_withClass ..).trans (gains_update _ _ fun sym => .mapMembers sym _ _)
  | nested _ _ _ => exact s.gains_withClass ..

theorem Entering.gains (he : Entering s s') : s.Gains s' := by
  induction he with
  | refl => exact .refl s
  | tail _ hstep ih => exact ih.trans hstep.gains

/-! ## Completing -/

theorem gains_dropCompleter (s : Store) (id : SymbolId) : s.Gains (s.dropCompleter id) :=
  s.gains_update id (.mapClass fun _ _ h => h)

theorem gains_fallBack (s : Store) (id : SymbolId) (f : Completer) : s.Gains (s.fallBack id f) := by
  unfold fallBack
  split
  · exact .refl s
  · exact s.gains_update id (.mapClass fun _ _ h => h)

theorem gains_addModifiers (s : Store) (id : SymbolId) (m : Modifiers) :
    s.Gains (s.addModifiers id m) :=
  s.gains_update id fun sym => .addModifiers sym m

theorem gains_withMethod (s : Store) (modifiers : Modifiers) (name : Name) (signature : Signature)
    (owner methodClass : SymbolId) :
    s.Gains (s.withMethod modifiers name signature owner methodClass) :=
  (s.gains_extend _ _).trans (gains_update _ _ fun sym => .mapMembers sym _ _)

theorem gains_standIn (s : Store) (id : SymbolId) (f : Completer) : s.Gains (s.standIn id f) := by
  have hbelow : ∀ m object, s.Gains ((s.addModifiers id m).below id object) := fun m object =>
    (s.gains_addModifiers id m).trans (gains_update _ _ (.mapClass fun _ _ h => by simp [h]))
  cases f with
  | emptyInterface object => exact hbelow _ object
  | box plan =>
    exact (hbelow _ plan.object).trans ((gains_withMethod ..).trans (gains_withMethod ..))
  | _ => exact .refl s

theorem Completes.gains {path : ClassPath} {flat : Name} {id : SymbolId} {c : Completer}
    {o : Completed} (h : s.Completes path flat id c o s') : s.Gains s' := by
  have hfailed : ∀ kind, s.Gains (s.recordFailure id kind) := fun kind =>
    s.gains_update id (.mapClass fun _ _ h => by simp [h])
  cases h with
  | read _ _ asked _ _ =>
    exact asked.entering.gains.trans ((gains_addModifiers ..).trans
      (gains_update _ _ (.mapClass fun _ _ h => by simp [h])))
  | stoodFor _ _ => exact gains_standIn ..
  | corrupt _ _ => exact hfailed _
  | missing _ _ => exact hfailed _

end Store

namespace Session

open Store

variable {st : Session}

theorem Sound.step_gains (h : st.Sound) (op : Op) : st.store.Gains (st.step op).store := by
  rcases h.step_cases op with ⟨id, rfl⟩ | ⟨s, he, hstep⟩
  · cases hc : st.world.store.completer? id with
    | none =>
      rw [Session.store, Session.step, World.complete_of_done hc]
      exact .refl _
    | some c =>
      obtain ⟨flat, -, hr⟩ := h.store.phased.pending hc not_false
      exact (gains_dropCompleter _ id).trans (World.complete_completes h.store.registered hc hr).gains
  · rcases hstep with hs | ⟨id, f, -, -, hs⟩
    · exact hs ▸ he.gains
    · exact hs ▸ he.gains.trans (s.gains_fallBack id f)

/-- What every operation does to the store, in the sense of a preorder, every run does. -/
theorem Sound.run_of_step {R : Store → Store → Prop} (refl : ∀ s, R s s)
    (trans : ∀ {s s' s''}, R s s' → R s' s'' → R s s'')
    (step : ∀ {st : Session}, st.Sound → ∀ op, R st.store (st.step op).store) (h : st.Sound)
    (ops : List Op) : R st.store (st.run ops).store := by
  induction ops generalizing st with
  | nil => exact refl _
  | cons op ops ih => exact trans (step h op) (ih (h.step op))

theorem Sound.run_gains (h : st.Sound) (ops : List Op) : st.store.Gains (st.run ops).store :=
  h.run_of_step Gains.refl Gains.trans Sound.step_gains ops

theorem Sound.run_grows (h : st.Sound) (ops : List Op) : ∃ l, st.store.Grows l (st.run ops).store := by
  refine h.run_of_step (R := fun s s' => ∃ l, s.Grows l s') (fun _ => ⟨[], .refl⟩) ?_ Sound.step_grows ops
  rintro s s' s'' ⟨l, hl⟩ ⟨l', hl'⟩
  exact ⟨_, hl.trans hl'⟩

/-- Once the core library is loaded, its types stay. -/
theorem Reachable.core_run (h : st.Reachable) {core : Tier} (hcore : st.table.core = some core)
    (ops : List Op) : (st.run ops).table.core = some core := by
  induction ops generalizing st with
  | nil => exact hcore
  | cons op ops ih =>
    refine ih (h.step op) ?_
    -- only loading touches the field, and loading again finds the same classes
    by_cases hop : op = .loadCore
    · rw [hop, (h.coreSettled (by simp [hcore])).1]
      exact hcore
    · rwa [table_step st hop]

end Session

/-! ## Append-only -/

/-- What a symbol is for good is the same in both. -/
structure Symbol.SameAs (sym sym' : Symbol) : Prop where
  kind : sym'.kind = sym.kind
  name : sym'.name = sym.name
  owner : sym'.owner = sym.owner
  ty : sym'.ty = sym.ty
  sentinel : sym'.sentinel = sym.sentinel
  operatorCode : sym'.operatorCode? = sym.operatorCode?
  fullName : sym'.qualifiedName = sym.qualifiedName
  flatName : sym'.classInfo?.map (·.flatName) = sym.classInfo?.map (·.flatName)

theorem Symbol.sameAs_of_outline {sym sym' : Symbol} (h : sym'.outline = sym.outline) :
    sym.SameAs sym' where
  kind := kind_of_outline h
  name := name_of_outline h
  owner := owner_of_outline h
  ty := ty_of_outline h
  sentinel := by simpa [outline] using congrArg Symbol.sentinel h
  operatorCode := operatorCode_of_outline h
  fullName := qualifiedName_of_outline h
  flatName := by
    have hflat : ∀ sym : Symbol, sym.classInfo?.map (·.flatName) =
        sym.outline.classInfo?.map (·.flatName) := by
      intro sym
      simp only [classInfo?, outline]
      cases sym.body <;> rfl
    rw [hflat, h, ← hflat]

namespace Session

variable {st : Session}

/-- `st'` has all that `st` has, and what it has besides was added. -/
structure AppendsTo (st st' : Session) : Prop where
  symbols : ∀ id sym, st.store.symbol? id = some sym →
    ∃ sym', st'.store.symbol? id = some sym' ∧ sym.SameAs sym' ∧ sym.Gains sym'
  /-- A type keeps its tag, its form and its declaring symbol. -/
  types : ∀ ty, st.store.HasType ty → st'.store.type? ty = st.store.type? ty
  texts : ∀ ty, st.store.HasType ty → st'.store.typeText ty = st.store.typeText ty
  classes : ∀ flat id, st.store.class? flat = some id → st'.store.class? flat = some id
  packages : ∀ full id, st.store.package? full = some id → st'.store.package? full = some id
  typeForTag : ∀ tag, st'.table.typeForTag? tag = st.table.typeForTag? tag
  boxForTag : ∀ tag, st'.table.boxForTag? tag = st.table.boxForTag? tag
  handles : st'.table = { st.table with core := st'.table.core }
  /-- The core library is loaded once. -/
  core : ∀ core, st.table.core = some core → st'.table.core = some core

/-- Whatever is done in a session only adds to it. -/
theorem Reachable.appendsTo_run (h : st.Reachable) (ops : List Op) : st.AppendsTo (st.run ops) := by
  have hsound := h.sound
  obtain ⟨htable, -, ha⟩ := hsound.extends_run ops
  obtain ⟨l, hgrown⟩ := hsound.run_grows ops
  constructor
  · intro id sym hs
    obtain ⟨sym', hs', ho⟩ := ha.keeps.symbol? hs
    obtain ⟨sym'', hs'', hgains⟩ := (hsound.run_gains ops).symbols id sym hs
    obtain rfl := Option.some.inj (hs'.symm.trans hs'')
    exact ⟨sym', hs', Symbol.sameAs_of_outline ho, hgains⟩
  · exact fun ty hty => hgrown.type? hty
  · exact fun ty hty => hgrown.typeText hsound.store.linked h.layered hty
  · exact fun flat id hc => ha.keeps.cls hc
  · exact fun full id hp => ha.keeps.package hp
  · exact fun tag => by rw [htable]; rfl
  · exact fun tag => by rw [htable]; rfl
  · exact htable
  · exact fun core hcore => h.core_run hcore ops

/-- The core library is loaded twice, with a class next to those that are there and an edit of the
class path in between. -/
theorem appendsTo_run_loading : ∃ (t : Table) (w : World),
    Table.build ⟨true, .v17⟩ Messages.english ClassPath.resolver .empty = (.ok t, w) ∧
      let st := (Session.mk t w).run [.resolveClass "p.Outer$Inner", .standForInterface ⟨40⟩]
      st.Reachable ∧ st.AppendsTo (st.run [.loadCore, .resolveClass "p.Other",
        .define "p.Outer" (.below "p.Other"), .complete ⟨40⟩, .standForBox ⟨12⟩, .loadCore]) := by
  obtain ⟨t, w, hbuild, -⟩ := Table.building_ensures ⟨true, .v17⟩ Messages.english .empty
  have hreach := (Reachable.built hbuild).run [.resolveClass "p.Outer$Inner", .standForInterface ⟨40⟩]
  exact ⟨t, w, hbuild, hreach, hreach.appendsTo_run _⟩

end Session

end SymbolTable
