/-
Wrapper classes that are made up.

Standing for the wrapper of a primitive type is done in two parts. First
the wrapper class is entered and a plan is put behind its definition; then,
whenever the class is completed, the plan is carried out if there is no
definition. What happens in between does not matter: as long as a completer
is pending, only stand-ins are put behind it, and the first one counts.
-/
import SymbolTable.Proofs.Outcomes

namespace SymbolTable

open Store

/-! ## What is pending -/

namespace Completer

theorem behind_append (c : Completer) (fs fs' : List Completer) :
    c.behind (fs ++ fs') = (c.behind fs).behind fs' := List.foldl_append

end Completer

namespace Store

variable {s s' s'' : Store} {id x : SymbolId}

/-- A completer that is pending in `s'` on a symbol of `s` was pending in `s`, and all that has
come since are stand-ins behind it. -/
structure Awaits (s s' : Store) : Prop where
  hasSymbol : ∀ id, s.HasSymbol id → s'.HasSymbol id
  completer : ∀ id k', s.HasSymbol id → s'.completer? id = some k' →
    ∃ k fs, s.completer? id = some k ∧ k' = k.behind fs

theorem Awaits.refl (s : Store) : s.Awaits s := ⟨fun _ h => h, fun _ k' _ hk => ⟨k', [], hk, rfl⟩⟩

theorem Awaits.trans (h : s.Awaits s') (h' : s'.Awaits s'') : s.Awaits s'' where
  hasSymbol id hid := h'.hasSymbol id (h.hasSymbol id hid)
  completer id k'' hid hk'' := by
    obtain ⟨k', fs', hk', rfl⟩ := h'.completer id k'' (h.hasSymbol id hid) hk''
    obtain ⟨k, fs, hk, rfl⟩ := h.completer id k' hid hk'
    exact ⟨k, fs ++ fs', hk, (k.behind_append fs fs').symm⟩

theorem Keeps.exists_classInfo? (h : s.Keeps s') (hid : s.HasSymbol id) {info' : ClassInfo}
    (hc : s'.classInfo? id = some info') : ∃ info, s.classInfo? id = some info := by
  obtain ⟨sym, hs⟩ := hid.symbol?
  obtain ⟨sym', hs', ho⟩ := h.symbol? hs
  obtain ⟨sym'', hs'', hb⟩ := classInfo?_eq_some.1 hc
  obtain rfl := Option.some.inj (hs'.symm.trans hs'')
  obtain ⟨info, hb', -⟩ := Symbol.classInfo_of_outline ho.symm hb
  exact ⟨info, classInfo?_eq_some.2 ⟨sym, hs, hb'⟩⟩

/-- If the classes that were there stay as they are, so do their completers. -/
theorem Awaits.of_classInfo? (hk : s.Keeps s')
    (hsame : ∀ info, s.classInfo? id = some info → s'.classInfo? id = some info)
    {k' : Completer} (hid : s.HasSymbol id) (hk' : s'.completer? id = some k') :
    s.completer? id = some k' := by
  obtain ⟨info', hinfo', hc⟩ := Option.bind_eq_some_iff.1 hk'
  obtain ⟨info, hinfo⟩ := hk.exists_classInfo? hid hinfo'
  obtain rfl := Option.some.inj ((hsame info hinfo).symm.trans hinfo')
  rw [Store.completer?, hinfo, Option.bind_some, hc]

theorem Entering.awaits (he : Entering s s') (hr : s.Registered) : s.Awaits s' where
  hasSymbol _ hid := he.keeps.hasSymbol hid
  completer _ k' hid hk' :=
    ⟨k', [], Awaits.of_classInfo? he.keeps (fun _ hc => he.classInfo? hr hc) hid hk', rfl⟩

theorem completer?_fallBack_other (s : Store) (f : Completer) (hne : id ≠ x) :
    (s.fallBack x f).completer? id = s.completer? id := by
  unfold fallBack
  split
  · rfl
  · exact (sameBut_update ..).completer? hne

theorem awaits_fallBack (s : Store) (x : SymbolId) (f : Completer) : s.Awaits (s.fallBack x f) where
  hasSymbol _ hid := (s.keeps_fallBack x f).hasSymbol hid
  completer id k' _ hk' := by
    by_cases hx : id = x
    · subst hx
      cases hk : s.completer? id with
      | none =>
        rw [fallBack_of_done hk, hk] at hk'
        cases hk'
      | some k =>
        rw [completer?_fallBack hk, Option.some.injEq] at hk'
        exact ⟨k, [f], rfl, hk'.symm⟩
    · exact ⟨k', [], (s.completer?_fallBack_other f hx).symm.trans hk', rfl⟩

end Store

namespace Session

variable {st : Session}

theorem Sound.step_awaits (h : st.Sound) (op : Op) : st.store.Awaits (st.step op).store := by
  have hkeeps := (h.advances op).keeps
  rcases h.step_cases op with ⟨x, rfl⟩ | ⟨s, he, hstep⟩
  · refine ⟨fun _ hid => hkeeps.hasSymbol hid, fun id k' hid hk' => ?_⟩
    by_cases hx : id = x
    · -- a class that was completed is pending no more
      subst hx
      cases hk : st.store.completer? id with
      | none =>
        rw [Session.store, Session.step, World.complete_of_done hk, ← Session.store, hk] at hk'
        cases hk'
      | some k =>
        have hphase := World.complete_inPhase h.store.registered h.store.phased hk
        have hlazy := hphase.completer?.1 (Option.isSome_iff_exists.2 ⟨k', hk'⟩)
        cases hout : (st.world.complete ClassPath.resolver id).1 <;>
          simp [hout, Phase.ofOutcome] at hlazy
    · refine ⟨k', [], Awaits.of_classInfo? hkeeps (fun info hc => ?_) hid hk', rfl⟩
      obtain ⟨sym, hs, hb⟩ := classInfo?_eq_some.1 hc
      exact classInfo?_eq_some.2
        ⟨sym, World.complete_symbol? h.store.registered h.store.phased hs hb hx, hb⟩
  · have hawaits := he.awaits h.store.registered
    rcases hstep with hs | ⟨x, f, -, -, hs⟩
    · exact hs ▸ hawaits
    · exact hs ▸ hawaits.trans (s.awaits_fallBack x f)

theorem Sound.run_awaits (h : st.Sound) (ops : List Op) : st.store.Awaits (st.run ops).store :=
  h.run_of_step Awaits.refl Awaits.trans Sound.step_awaits ops

end Session

/-! ## Carrying out a plan -/

theorem Scope.toList_enter_enter (id x y : SymbolId) {n n' : Name} (hne : n ≠ n') :
    (((Scope.members id).enter n x).enter n' y).toList = [(n, [x]), (n', [y])] := by
  simp [Scope.toList, Scope.enter, Scope.members, OrderedMap.insert, OrderedMap.empty,
    OrderedMap.get?, putEntry, hne]

namespace Store

variable {s : Store} {id x : SymbolId} {sym : Symbol} {info : ClassInfo} {plan : BoxPlan}

theorem symbol?_withMethod (h : s.HasSymbol id) (m : Modifiers) (name : Name) (g : Signature)
    (mc : SymbolId) : (s.withMethod m name g id mc).symbol? x =
      if x = s.nextSymbol then some ⟨m, name, some id, s.nextType, none, .method⟩
      else if x = id then
        (s.symbol? x).map (Symbol.mapMembers fun scope => scope.enter name s.nextSymbol)
      else s.symbol? x := by
  rw [withMethod, addMethod_eq, symbol?_update, symbol?_extend]
  by_cases hx : x = id
  · subst hx
    simp [h.ne_next]
  · simp [hx]

theorem type?_withMethod_eq (s : Store) (m : Modifiers) (name : Name) (g : Signature)
    (owner mc : SymbolId) (ty : TypeId) : (s.withMethod m name g owner mc).type? ty =
      if ty = s.nextType then some ⟨.method g, some mc⟩ else s.type? ty := type?_addType ..

theorem sizes_withMethod (s : Store) (m : Modifiers) (name : Name) (g : Signature)
    (owner mc : SymbolId) :
    (s.withMethod m name g owner mc).symbols.size = s.symbols.size + 1 ∧
      (s.withMethod m name g owner mc).types.size = s.types.size + 1 := by
  simp [withMethod, addMethod_eq, extend, addSymbol, addType, update]

/-- What became of a store in which the class `id` was made a wrapper: it has two methods, for
which there are two symbols and two types more. -/
structure Wraps (s : Store) (id : SymbolId) (plan : BoxPlan) (s' : Store) : Prop where
  cls : ∃ sym info scope, s.symbol? id = some sym ∧ sym.body = .cls info ∧
    scope.owner = id ∧ scope.kind = .members ∧
    scope.toList = [(plan.factory, [⟨s.symbols.size⟩]), (plan.unbox, [⟨s.symbols.size + 1⟩])] ∧
    s'.symbol? id = some { sym with
      modifiers := sym.modifiers ∪ .single .isPublic, body := .cls { info with
        supertype := some plan.object, interfaces := some [], members := some scope,
        completer := none } }
  factory : s'.symbol? ⟨s.symbols.size⟩ = some
      { modifiers := .ofFlags [.isPublic, .isStatic], name := plan.factory, owner := some id,
        ty := ⟨s.types.size⟩, sentinel := none, body := .method } ∧
    s'.type? ⟨s.types.size⟩ =
      some ⟨.method (.of [plan.primitive] (s.typeOf id)), some plan.methodClass⟩
  unbox : s'.symbol? ⟨s.symbols.size + 1⟩ = some
      { modifiers := .single .isPublic, name := plan.unbox, owner := some id,
        ty := ⟨s.types.size + 1⟩, sentinel := none, body := .method } ∧
    s'.type? ⟨s.types.size + 1⟩ = some ⟨.method (.of [] plan.primitive), some plan.methodClass⟩
  symbols : s'.symbols.size = s.symbols.size + 2
  types : s'.types.size = s.types.size + 2
  symbol? : ∀ x, s.HasSymbol x → x ≠ id → s'.symbol? x = s.symbol? x
  type? : ∀ ty, s.HasType ty → s'.type? ty = s.type? ty
  classes : s'.classes = s.classes
  packages : s'.packages = s.packages

theorem symbol?_below (hs : s.symbol? id = some sym) (hb : sym.body = .cls info)
    (hunread : Phase.IsUnread sym.modifiers info) (m : Modifiers) (object : TypeId) :
    ((s.addModifiers id m).below id object).symbol? id = some { sym with
      modifiers := sym.modifiers ∪ m, body := .cls { info with
        supertype := some object, interfaces := some [], members := some (.members id) } } := by
  refine (symbol?_mapClass (symbol?_addModifiers hs m) hb _).trans ?_
  simp [hunread.interfaces, hunread.members]

/-- The two methods are added to a class that has an empty scope. The new identities are those that
follow the ones of `s`, from which `s₁` differs in the class alone. -/
theorem SameBut.wraps {s₁ : Store} (h : s.SameBut id s₁) (hs : s.symbol? id = some sym)
    (hb : sym.body = .cls info) (hnames : plan.factory ≠ plan.unbox)
    (h₁ : s₁.symbol? id = some { sym with
      modifiers := sym.modifiers ∪ .single .isPublic, body := .cls { info with
        supertype := some plan.object, interfaces := some [], members := some (.members id),
        completer := none } }) : s.Wraps id plan (s₁.withBoxing id plan) := by
  have hid₁ := hasSymbol_of_symbol? h₁
  have htype : s₁.typeOf id = s.typeOf id := by rw [typeOf_of_symbol? h₁, typeOf_of_symbol? hs]
  rw [withBoxing, htype]
  set s₂ := s₁.withMethod (.ofFlags [.isPublic, .isStatic]) plan.factory
    (.of [plan.primitive] (s.typeOf id)) id plan.methodClass with hs₂
  obtain ⟨hsize₂, hsize₂'⟩ : s₂.symbols.size = s₁.symbols.size + 1 ∧
    s₂.types.size = s₁.types.size + 1 := sizes_withMethod ..
  have hid₂ : s₂.HasSymbol id := (keeps_withMethod ..).hasSymbol hid₁
  have hnext₁ : s₁.nextSymbol = ⟨s.symbols.size⟩ := congrArg SymbolId.mk h.size
  have hnext₂ : s₂.nextSymbol = ⟨s.symbols.size + 1⟩ := by rw [nextSymbol, hsize₂, h.size]
  have hty₁ : s₁.nextType = ⟨s.types.size⟩ := by rw [nextType, h.types]
  have hty₂ : s₂.nextType = ⟨s.types.size + 1⟩ := by rw [nextType, hsize₂', h.types]
  have hold : id ≠ ⟨s.symbols.size⟩ ∧ id ≠ ⟨s.symbols.size + 1⟩ := by
    rw [← hnext₁, ← hnext₂]
    exact ⟨hid₁.ne_next, hid₂.ne_next⟩
  constructor
  · refine ⟨sym, info, ((Scope.members id).enter plan.factory ⟨s.symbols.size⟩).enter plan.unbox
      ⟨s.symbols.size + 1⟩, hs, hb, rfl, rfl, Scope.toList_enter_enter _ _ _ hnames, ?_⟩
    rw [symbol?_withMethod hid₂, hnext₂, if_neg hold.2, if_pos rfl, hs₂, symbol?_withMethod hid₁,
      hnext₁, if_neg hold.1, if_pos rfl, h₁]
    rfl
  · rw [symbol?_withMethod hid₂, type?_withMethod_eq, hnext₂, hty₂, if_neg (by simp),
      if_neg hold.1.symm, if_neg (by simp), hs₂, symbol?_withMethod hid₁, type?_withMethod_eq, hnext₁,
      hty₁, if_pos rfl, if_pos rfl]
    exact ⟨rfl, rfl⟩
  · rw [symbol?_withMethod hid₂, type?_withMethod_eq, hnext₂, hty₂, if_pos rfl, if_pos rfl]
    exact ⟨rfl, rfl⟩
  · rw [(sizes_withMethod ..).1, hsize₂, h.size]
  · rw [(sizes_withMethod ..).2, hsize₂', h.types]
  · intro x hx hne
    have hx₁ : s₁.HasSymbol x := by rwa [HasSymbol, h.size]
    have hx₂ : s₂.HasSymbol x := (keeps_withMethod ..).hasSymbol hx₁
    rw [symbol?_withMethod hid₂, if_neg hx₂.ne_next, if_neg hne, hs₂, symbol?_withMethod hid₁,
      if_neg hx₁.ne_next, if_neg hne, h.others x hne]
  · intro ty hty
    have hty₁ : s₁.HasType ty := by rwa [HasType, h.types]
    have hty₂ : s₂.HasType ty := (keeps_withMethod ..).hasType hty₁
    rw [type?_withMethod_eq, if_neg hty₂.ne_next, hs₂, type?_withMethod_eq, if_neg hty₁.ne_next,
      Store.type?, h.types, ← Store.type?]
  · exact h.classes
  · exact h.packages

theorem wraps_standIn (hs : s.symbol? id = some sym) (hb : sym.body = .cls info)
    (hlazy : Phase.IsLazy sym.modifiers info) (hnames : plan.factory ≠ plan.unbox) :
    s.Wraps id plan ((s.dropCompleter id).standIn id (.box plan)) := by
  have hdropped := symbol?_mapClass hs hb fun info => { info with completer := none }
  have hbelow := symbol?_below hdropped rfl { hlazy.toIsUnread with } (.single .isPublic) plan.object
  have hsame : s.SameBut id (((s.dropCompleter id).addModifiers id (.single .isPublic)).below id
      plan.object) :=
    (sameBut_update ..).trans ((sameBut_update ..).trans (sameBut_update ..))
  exact hsame.wraps hs hb hnames hbelow

end Store

/-! ## Making a plan -/

namespace StandinContext

variable (ctx : StandinContext) {w : World} {ty : TypeId} {t : Ty}

/-- How the wrapper of a primitive type is made up, given the name of the type's class. -/
def boxPlan (ty : TypeId) (name : Name) : BoxPlan :=
  ⟨ty, ctx.object, ctx.factoryName, name ++ unboxSuffix, ctx.methodClass⟩

theorem boxPlan_names (ty : TypeId) (name : Name) :
    (ctx.boxPlan ty name).factory ≠ (ctx.boxPlan ty name).unbox := by
  intro h
  have hlast := congrArg (fun n : Name => n.toList.getLast?) h
  simp only [boxPlan, factoryName, unboxSuffix, String.toList_append] at hlast
  split at hlast <;> simp [WellKnown.text] at hlast

theorem standForBox_refused (r : Resolver) (ht : w.store.type? ty = some t)
    (h : ctx.primitives.type? t.tag ≠ some ty ∨ ctx.primitives.box? t.tag = none) :
    ctx.standForBox r ty w = (.error (.noBoxedForm t.tag), w) := by
  simp only [standForBox, ht, Option.map_some, Option.getD_some]
  split
  · next boxed declaring hboxed hd =>
    rw [if_neg (h.resolve_right (by simp [hboxed]))]
  · rfl

theorem standForBox_planned (r : Resolver) (ht : w.store.type? ty = some t)
    (hty : ctx.primitives.type? t.tag = some ty) {boxed : Name}
    (hboxed : ctx.primitives.box? t.tag = some boxed) {declaring : SymbolId}
    (hd : w.store.declaring? ty = some declaring) {c : SymbolId} {w₁ : World}
    (hask : r.askClass boxed (w.see (w.store.nameOf declaring ++ unboxSuffix)) = (c, w₁)) :
    ctx.standForBox r ty w = (.ok c, { w₁ with
      store := w₁.store.fallBack c (.box (ctx.boxPlan ty (w.store.nameOf declaring))) }) := by
  simp only [standForBox, ht, Option.map_some, Option.getD_some, hboxed, hd, hty, if_true, hask]
  rfl

end StandinContext

namespace Session

variable {st : Session} {ty : TypeId} {t : Ty} {boxed : Name} {c : SymbolId}

/-- A wrapper is refused to a type, or its class is entered and the plan is put behind it. -/
theorem Sound.standForBox_cases (h : st.Sound) (ht : st.store.type? ty = some t) :
    (st.table.typeForTag? t.tag ≠ some ty ∨ st.table.boxForTag? t.tag = none) ∧
      st.table.standForBox ClassPath.resolver ty st.world =
        (.error (.noBoxedForm t.tag), st.world) ∨
    ∃ (boxed : Name) (declaring c : SymbolId) (w₁ : World),
      st.table.typeForTag? t.tag = some ty ∧ st.table.boxForTag? t.tag = some boxed ∧
      st.store.declaring? ty = some declaring ∧ World.ClassEntered st.store boxed c w₁.store ∧
      st.table.standForBox ClassPath.resolver ty st.world = (.ok c, { w₁ with
        store := w₁.store.fallBack c
          (.box (st.table.standins.boxPlan ty (st.store.nameOf declaring))) }) := by
  by_cases hty : st.table.typeForTag? t.tag = some ty
  · cases hboxed : st.table.boxForTag? t.tag with
    | none => exact .inl ⟨.inr rfl, st.table.standins.standForBox_refused _ ht (.inr hboxed)⟩
    | some boxed =>
      obtain ⟨_, declaring, -, -, hd, -⟩ := h.held.primitives t.tag ty hty
      have hreg : (st.world.see (st.store.nameOf declaring ++ unboxSuffix)).store.Registered :=
        h.store.registered
      have hentered := ClassPath.askClass_entered boxed hreg
      cases hask : ClassPath.resolver.askClass boxed
          (st.world.see (st.store.nameOf declaring ++ unboxSuffix)) with
      | mk c w₁ =>
        rw [hask] at hentered
        exact .inr ⟨boxed, declaring, c, w₁, hty, rfl, hd, hentered,
          st.table.standins.standForBox_planned _ ht hty hboxed hd hask⟩
  · exact .inl ⟨.inl hty, st.table.standins.standForBox_refused _ ht (.inl hty)⟩

/-- A wrapper class behind which nothing stood is to be read from its definition, whether it is new
or was there. -/
theorem Sound.completer?_entered (h : st.Sound) {s₁ : Store}
    (hentered : World.ClassEntered st.store boxed c s₁)
    (hplain : ∀ id, st.store.class? boxed = some id →
      st.store.completer? id = some (.classFile boxed)) :
    s₁.completer? c = some (.classFile boxed) := by
  rcases hentered.entering.entered h.store.registered hentered.found with hold | ⟨_, _, _, hs⟩
  · exact hentered.entering.addsTo.completer? (hplain c hold)
  · exact completer?_eq_some.2 ⟨_, _, hs, rfl, rfl⟩

theorem Sound.planned (h : st.Sound) (ht : st.store.type? ty = some t)
    (hboxed : st.table.boxForTag? t.tag = some boxed)
    (hc : (st.table.standForBox ClassPath.resolver ty st.world).1 = .ok c)
    (hplain : ∀ id, st.store.class? boxed = some id →
      st.store.completer? id = some (.classFile boxed)) :
    ∃ declaring, st.store.declaring? ty = some declaring ∧
      (st.step (.standForBox ty)).store.class? boxed = some c ∧
      (st.step (.standForBox ty)).store.completer? c = some (.orElse (.classFile boxed)
        (.box (st.table.standins.boxPlan ty (st.store.nameOf declaring)))) := by
  rcases h.standForBox_cases ht with ⟨-, herror⟩ | ⟨boxed', declaring, c', w₁, -, hboxed', hd,
    hentered, hok⟩
  · rw [herror] at hc
    cases hc
  · obtain rfl := Option.some.inj (hboxed.symm.trans hboxed')
    obtain rfl : c' = c := by simpa [hok] using hc
    rw [Session.store, Session.step, hok]
    exact ⟨declaring, hd, (keeps_fallBack ..).cls hentered.found,
      completer?_fallBack (h.completer?_entered hentered hplain) _⟩

/-- The plan is what takes effect whenever the class is completed later on without a definition. -/
theorem Sound.complete_planned {plan : BoxPlan} (h : st.Sound)
    (hclass : st.store.class? boxed = some c)
    (hplan : st.store.completer? c = some (.orElse (.classFile boxed) (.box plan)))
    (hnames : plan.factory ≠ plan.unbox) (ops : List Op)
    (hpending : ((st.run ops).store.completer? c).isSome)
    (hmissing : (st.run ops).world.path.get? boxed = none) (r : Resolver) :
    ∃ s', (st.run ops).world.complete r c = (.ok (), { (st.run ops).world with store := s' }) ∧
      (st.run ops).store.Wraps c plan s' := by
  obtain ⟨k', hk'⟩ := Option.isSome_iff_exists.1 hpending
  have hextends := h.extends_run ops
  obtain ⟨k, fs, hk, rfl⟩ := (h.run_awaits ops).completer c k' (h.store.registered.hasSymbol hclass) hk'
  obtain rfl := Option.some.inj (hplan.symm.trans hk)
  obtain ⟨flat, sym, info, hclass', hreads, hs, hb, -, hlazy⟩ := hextends.sound.pending hk'
  obtain rfl := hextends.sound.store.registered.flat_eq (hextends.advances.keeps.cls hclass) hclass'
  refine ⟨_, ?_, wraps_standIn hs hb hlazy hnames⟩
  rw [World.complete_eq_completedBy hk' hreads, Completer.standin?_behind]
  simp only [World.completedBy, hmissing, Completer.standin?, Option.getD_none, Option.some_or]
  rfl

/-- How a session stands for the wrapper of a type. -/
structure BoxesExactly (st : Session) (ty : TypeId) (t : Ty) : Prop where
  /-- Only the canonical type of a tag with a wrapper has one. -/
  refused : (st.table.standForBox ClassPath.resolver ty st.world).1 = .error (.noBoxedForm t.tag) ↔
    st.table.typeForTag? t.tag ≠ some ty ∨ st.table.boxForTag? t.tag = none
  untouched : ∀ e, (st.table.standForBox ClassPath.resolver ty st.world).1 = .error e →
    (st.table.standForBox ClassPath.resolver ty st.world).2 = st.world
  answered : ∀ boxed, st.table.typeForTag? t.tag = some ty →
    st.table.boxForTag? t.tag = some boxed →
    ∃ c, (st.table.standForBox ClassPath.resolver ty st.world).1 = .ok c ∧
      (st.table.standForBox ClassPath.resolver ty st.world).2.store.class? boxed = some c
  /-- A wrapper class behind which nothing stood is made up if it is completed without a definition,
  whatever was done in between and whoever resolves. -/
  synthesized : ∀ boxed c, st.table.boxForTag? t.tag = some boxed →
    (st.table.standForBox ClassPath.resolver ty st.world).1 = .ok c →
    (∀ id, st.store.class? boxed = some id → st.store.completer? id = some (.classFile boxed)) →
    ∃ declaring object, st.store.declaring? ty = some declaring ∧
      st.store.ClassType objectName object ∧ ∀ ops,
        let st' := (st.step (.standForBox ty)).run ops
        (st'.store.completer? c).isSome → st'.world.path.get? boxed = none → ∀ r : Resolver,
          ∃ s', st'.world.complete r c = (.ok (), { st'.world with store := s' }) ∧
            st'.store.Wraps c
              { primitive := ty, object, methodClass := st.table.methodClass,
                factory := if st.table.options.release.boxesByConstructor then "<init>" else "valueOf",
                unbox := st.store.nameOf declaring ++ "Value" } s'

/-- Wrappers are made up exactly as planned, for every type and in every session. -/
theorem Reachable.boxesExactly (h : st.Reachable) (ht : st.store.type? ty = some t) :
    st.BoxesExactly ty t := by
  constructor
  · rcases h.sound.standForBox_cases ht with ⟨hno, herror⟩ | ⟨boxed, _, c, w₁, hty, hboxed, -, -, hok⟩
    · simp [herror, hno]
    · simp [hok, hty, hboxed]
  · intro e he
    rcases h.sound.standForBox_cases ht with ⟨-, herror⟩ | ⟨_, _, c, w₁, -, -, -, -, hok⟩
    · rw [herror]
    · rw [hok] at he
      cases he
  · intro boxed hty hboxed
    rcases h.sound.standForBox_cases ht with ⟨hno, -⟩ | ⟨boxed', _, c, w₁, -, hboxed', -, hentered, hok⟩
    · simp [hty, hboxed] at hno
    · obtain rfl := Option.some.inj (hboxed.symm.trans hboxed')
      rw [hok]
      exact ⟨c, rfl, (keeps_fallBack ..).cls hentered.found⟩
  · intro boxed c hboxed hc hplain
    obtain ⟨declaring, hd, hclass, hplan⟩ := h.sound.planned ht hboxed hc hplain
    have hobject : st.store.ClassType objectName st.table.standins.object :=
      h.sound.held.platform.typeOf (e := ⟨"object", objectName⟩) rfl
    have hnames := st.table.standins.boxPlan_names ty (st.store.nameOf declaring)
    exact ⟨declaring, st.table.standins.object, hd, hobject, fun ops hpending hmissing r =>
      (h.sound.step _).complete_planned hclass hplan hnames ops hpending hmissing r⟩

/-- The wrapper of bytes is boxed by constructor. Its class is entered by the plan, and the class
path has a definition of it for a while. -/
theorem boxesExactly_byte : ∃ (t : Table) (w : World) (ty : TypeId) (c : SymbolId) (b : Ty),
    Table.build ⟨true, .v14⟩ Messages.english ClassPath.resolver .empty = (.ok t, w) ∧
      let st := Session.mk t w
      let st' := (st.step (.standForBox ty)).run
        [.define "java.lang.Byte" .blank, .resolveClass "java.lang.Byte$Cache",
          .undefine "java.lang.Byte"]
      st.Reachable ∧ st.store.type? ty = some b ∧ b.tag = .byte ∧ st.BoxesExactly ty b ∧
        st'.store.class? "java.lang.Byte" = some c ∧
        ∃ plan s', plan.primitive = ty ∧ plan.factory = "<init>" ∧
          st'.world.complete ClassPath.resolver c = (.ok (), { st'.world with store := s' }) ∧
          st'.store.Wraps c plan s' := by
  obtain ⟨t, w, hbuild, hfurnished⟩ := Table.building_furnished ⟨true, .v14⟩ Messages.english .empty
  have hnew : w.store.class? "java.lang.Byte" = none :=
    hfurnished.class?_of_apart rfl (by decide +kernel)
  have hreach := Reachable.built hbuild
  generalize hst : Session.mk t w = st at hreach
  have hty : st.table.typeForTag? .byte = some ⟨7⟩ := by
    rw [← hst, Table.typeForTag?, hfurnished.primitives]
    rfl
  have hboxed : st.table.boxForTag? .byte = some "java.lang.Byte" := by
    rw [← hst, Table.boxForTag?, hfurnished.primitives]
    rfl
  obtain ⟨f, -, hform, hf, -⟩ := hreach.sound.held.primitives .byte ⟨7⟩ hty
  obtain ⟨b, hb, rfl⟩ := Option.map_eq_some_iff.1 hform
  have htag : b.tag = .byte := hf
  have hexact := hreach.boxesExactly hb
  obtain ⟨c, hc, -⟩ := hexact.answered "java.lang.Byte" (htag ▸ hty) (htag ▸ hboxed)
  have hplain : ∀ id, st.store.class? "java.lang.Byte" = some id →
      st.store.completer? id = some (.classFile "java.lang.Byte") := by
    intro id hid
    rw [← hst] at hid
    exact absurd (hnew.symm.trans hid) (Option.some_ne_none _).symm
  obtain ⟨_, -, hclass, hplan⟩ := hreach.sound.planned hb (htag ▸ hboxed) hc hplain
  obtain ⟨_, _, -, -, hall⟩ := hexact.synthesized "java.lang.Byte" c (htag ▸ hboxed) hc hplain
  have hsound := hreach.sound.step (.standForBox ⟨7⟩)
  have hfactory : (if st.table.options.release.boxesByConstructor then "<init>" else "valueOf") =
      "<init>" := by
    rw [← hst, hfurnished.target]
    rfl
  obtain ⟨s', hcomplete, hwraps⟩ := hall [.define "java.lang.Byte" .blank,
    .resolveClass "java.lang.Byte$Cache", .undefine "java.lang.Byte"]
    (hsound.pending_run hplan (by simp)) (by simp [get?_run, definitionAfter, Op.edit?])
    ClassPath.resolver
  refine ⟨t, w, ⟨7⟩, c, b, hbuild, ?_⟩
  rw [hst]
  exact ⟨hreach, hb, htag, hexact, (hsound.extends_run _).advances.keeps.cls hclass, _, s', rfl,
    hfactory, hcomplete, hwraps⟩

end Session

end SymbolTable
