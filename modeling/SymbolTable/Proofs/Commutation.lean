/-
Completions commute.

Completions that are run in another order add other identities, so what is
compared is what can be seen of a class without them (`ClassView`). How a
pending class is seen once it is completed is laid down in the store that
the run starts from; no other completion bears on it. So the order of a run
shows neither in its outcomes nor in the classes it leaves.
-/
import SymbolTable.CommandLine.Listing
import SymbolTable.Proofs.Definitions
import SymbolTable.Proofs.Rendering

namespace SymbolTable

open Store

/-! ## Views -/

/-- What can be seen of a class without its identities. -/
structure ClassView where
  modifiers : Modifiers
  supertype : Option (Option Name)
  interfaces : Option (List (Option Name))
  /-- The names of the members, with the texts of their types. -/
  members : Option (List (Name × String))
  failure : Option FailureKind
  pending : Bool
  deriving DecidableEq

namespace ClassView

def unread : ClassView := ⟨.empty, none, none, none, none, true⟩

def failed (kind : FailureKind) : ClassView := ⟨.empty, none, none, some [], some kind, false⟩

def completed (modifiers : Modifiers) (supertype : Option (Option Name))
    (interfaces : List (Option Name)) (members : List (Name × String)) : ClassView :=
  ⟨.empty ∪ modifiers, supertype, some interfaces, some members, none, false⟩

end ClassView

namespace Store

variable {s s' : Store} {root mc id : SymbolId} {flat : Name} {sym : Symbol} {info : ClassInfo}
  {l : List Change} {m : Modifiers}

def memberViews (s : Store) (scope : Scope) : List (Name × String) :=
  scope.entered.map fun (name, x) => (name, s.typeText (s.typeOf x))

def view (s : Store) (modifiers : Modifiers) (info : ClassInfo) : ClassView where
  modifiers
  supertype := info.supertype.map s.keyBehind?
  interfaces := info.interfaces.map (·.map s.keyBehind?)
  members := info.members.map s.memberViews
  failure := info.failure
  pending := info.completer.isSome

/-- How the class registered under a name is seen. -/
def view? (s : Store) (flat : Name) : Option ClassView := do
  let id ← s.class? flat
  let sym ← s.symbol? id
  let info ← sym.classInfo?
  return s.view sym.modifiers info

theorem view?_eq (hc : s.class? flat = some id) (hs : s.symbol? id = some sym)
    (hb : sym.body = .cls info) : s.view? flat = some (s.view sym.modifiers info) := by
  simp [view?, hc, hs, Symbol.classInfo?, hb]

/-- The types that a class mentions are seen as they were. -/
theorem Grows.view (hg : s.Grows l s') (h : s.Sound root mc) (hl : s.Layered)
    (hs : s.symbol? id = some sym) (hb : sym.body = .cls info) (m : Modifiers) :
    s'.view m info = s.view m info := by
  have hlinked := h.linked.symbols id sym hs
  have hclass := hlinked.classInfo hb
  have hkeys : ∀ tys : List TypeId, (∀ ty ∈ tys, s.HasType ty) →
      tys.map s'.keyBehind? = tys.map s.keyBehind? := fun tys htys =>
    List.map_congr_left fun ty hty => hg.keyBehind? h.linked hl (htys ty hty)
  have hsupertype : info.supertype.map s'.keyBehind? = info.supertype.map s.keyBehind? := by
    cases hsuper : info.supertype with
    | none => rfl
    | some ty => exact congrArg some (hg.keyBehind? h.linked hl (hclass.supertype ty hsuper))
  have hinterfaces : info.interfaces.map (·.map s'.keyBehind?) =
      info.interfaces.map (·.map s.keyBehind?) := by
    cases hinterfaces : info.interfaces with
    | none => rfl
    | some tys =>
      exact congrArg some (hkeys tys fun ty hty => hclass.interfaces ty (by simp [hinterfaces, hty]))
  have hmembers : info.members.map s'.memberViews = info.members.map s.memberViews := by
    cases hscope : info.members with
    | none => rfl
    | some scope =>
      refine congrArg some (List.map_congr_left fun nx hnx => ?_)
      obtain ⟨⟨n, xs⟩, hgroup, hentry⟩ := List.mem_flatMap.1 hnx
      obtain ⟨x, hx, rfl⟩ := List.mem_map.1 hentry
      obtain ⟨hsym, -⟩ := (hclass.members scope hscope).entries n xs hgroup x hx
      simp only [hg.keeps.typeOf hsym, hg.typeText h.linked hl (h.linked.hasType_typeOf hsym)]
  simp only [Store.view, hsupertype, hinterfaces, hmembers]

theorem Grows.view? (hg : s.Grows l s') (h : s.Sound root mc) (hl : s.Layered)
    (hc : s.class? flat = some id) (hsame : s'.symbol? id = s.symbol? id) :
    s'.view? flat = s.view? flat := by
  obtain ⟨sym, info, hs, hb, -⟩ := h.registered.cls hc
  rw [view?_eq (hg.keeps.cls hc) (hsame.trans hs) hb, view?_eq hc hs hb, hg.view h hl hs hb]

/-! ## A completion -/

/-- `id` is a class with the modifiers `m`, and `info` is what is known of it. -/
def Shows (s : Store) (id : SymbolId) (m : Modifiers) (info : ClassInfo) : Prop :=
  ∃ sym, s.symbol? id = some sym ∧ sym.modifiers = m ∧ sym.body = .cls info

theorem Shows.view? (h : s.Shows id m info) (hc : s.class? flat = some id) :
    s.view? flat = some (s.view m info) := by
  obtain ⟨sym, hs, rfl, hb⟩ := h
  exact view?_eq hc hs hb

theorem Shows.hasSymbol (h : s.Shows id m info) : s.HasSymbol id := by
  obtain ⟨sym, hs, -⟩ := h
  exact hasSymbol_of_symbol? hs

theorem Shows.entering (h : s.Shows id m info) (hr : s.Registered) (he : s.Entering s') :
    s'.Shows id m info := by
  obtain ⟨sym, hs, hm, hb⟩ := h
  exact ⟨sym, he.symbol? hr hs (by simp [hb]), hm, hb⟩

theorem Shows.addModifiers (h : s.Shows id m info) (m' : Modifiers) :
    (s.addModifiers id m').Shows id (m ∪ m') info := by
  obtain ⟨sym, hs, rfl, hb⟩ := h
  exact ⟨_, symbol?_addModifiers hs m', rfl, hb⟩

theorem Shows.mapClass (h : s.Shows id m info) (f : ClassInfo → ClassInfo) :
    (s.update id (Symbol.mapClass f)).Shows id m (f info) := by
  obtain ⟨sym, hs, rfl, hb⟩ := h
  refine ⟨_, by rw [symbol?_update_self, hs, Option.map_some], ?_, ?_⟩ <;> simp [Symbol.mapClass, hb]

theorem Shows.withMethod (h : s.Shows id m info) (modifiers : Modifiers) (name : Name)
    (g : Signature) (mc : SymbolId) : (s.withMethod modifiers name g id mc).Shows id m
      { info with members := info.members.map (·.enter name s.nextSymbol) } := by
  obtain ⟨sym, hs, rfl, hb⟩ := h
  have hself : (s.withMethod modifiers name g id mc).symbol? id =
      some (sym.mapMembers (·.enter name s.nextSymbol)) := by
    rw [Store.withMethod, symbol?_update_self, addMethod_eq,
      symbol?_extend_old (hasSymbol_of_symbol? hs), hs, Option.map_some]
  exact ⟨_, hself, by simp [Symbol.mapMembers, hb], by simp [Symbol.mapMembers, hb]⟩

theorem type?_withMethod (s : Store) (m : Modifiers) (name : Name) (g : Signature)
    (hid : s.HasSymbol id) (mc : SymbolId) :
    (s.withMethod m name g id mc).HasSymbol s.nextSymbol ∧
      (s.withMethod m name g id mc).typeOf s.nextSymbol = s.nextType ∧
      (s.withMethod m name g id mc).type? s.nextType = some ⟨.method g, some mc⟩ := by
  have hself : (s.withMethod m name g id mc).symbol? s.nextSymbol =
      some ⟨m, name, some id, s.nextType, none, .method⟩ := by
    rw [withMethod, symbol?_update_other _ _ hid.ne_next.symm, addMethod_eq, symbol?_extend,
      if_pos rfl]
  refine ⟨hasSymbol_of_symbol? hself, typeOf_of_symbol? hself, ?_⟩
  have htype : (s.withMethod m name g id mc).type? s.nextType =
      (s.addType ⟨.method g, some mc⟩).2.type? s.nextType := rfl
  rw [htype, type?_addType, if_pos rfl]

theorem entered_members (id x y : SymbolId) (n n' : Name) :
    (((Scope.members id).enter n x).enter n' y).entered = [(n, x), (n', y)] := by
  by_cases hn : n' = n
  · simp [Scope.entered, Scope.toList, Scope.enter, Scope.members, OrderedMap.insert, OrderedMap.empty,
      OrderedMap.get?, putEntry, hn]
  · simp [Scope.entered, Scope.toList, Scope.enter, Scope.members, OrderedMap.insert, OrderedMap.empty,
      OrderedMap.get?, putEntry, Ne.symm hn]

theorem Shows.withBoxing (h : s.Shows id m info) {plan : BoxPlan}
    (hscope : info.members = some (.members id)) (hl : (s.withBoxing id plan).Layered) :
    ∃ scope, (s.withBoxing id plan).Shows id m { info with members := some scope } ∧
      (s.withBoxing id plan).memberViews scope =
        [(plan.factory, (s.withBoxing id plan).signatureText (.of [plan.primitive] (s.typeOf id))),
          (plan.unbox, (s.withBoxing id plan).signatureText (.of [] plan.primitive))] := by
  unfold Store.withBoxing at hl ⊢
  set s₁ := s.withMethod (.ofFlags [.isPublic, .isStatic]) plan.factory
    (.of [plan.primitive] (s.typeOf id)) id plan.methodClass with hs₁
  set s₂ := s₁.withMethod (.single .isPublic) plan.unbox (.of [] plan.primitive) id
    plan.methodClass with hs₂
  have h₁ : s₁.Shows id m _ := h.withMethod ..
  have h₂ : s₂.Shows id m _ := h₁.withMethod ..
  obtain ⟨hsym₁, hty₁, htype₁⟩ := s.type?_withMethod (.ofFlags [.isPublic, .isStatic]) plan.factory
    (.of [plan.primitive] (s.typeOf id)) h.hasSymbol plan.methodClass
  obtain ⟨-, hty₂, htype₂⟩ := s₁.type?_withMethod (.single .isPublic) plan.unbox
    (.of [] plan.primitive) h₁.hasSymbol plan.methodClass
  have hk : s₁.Keeps s₂ := keeps_withMethod ..
  have htype₁' : s₂.type? s.nextType = some ⟨.method _, some plan.methodClass⟩ :=
    (type?_addType_old htype₁ _)
  refine ⟨((Scope.members id).enter plan.factory s.nextSymbol).enter plan.unbox s₁.nextSymbol, ?_, ?_⟩
  · simpa only [hscope, Option.map_some] using h₂
  · simp only [memberViews, entered_members, List.map_cons, List.map_nil]
    rw [hk.typeOf hsym₁, hty₁, hty₂, hl.typeText_method htype₁', hl.typeText_method htype₂]

end Store

/-- How a class is seen that a stand-in made up. -/
def Completer.standinView (s : Store) (id : SymbolId) : Completer → ClassView
  | .emptyInterface object =>
    .completed (.ofFlags [.isPublic, .isInterface]) (some (s.keyBehind? object)) [] []
  | .box plan =>
    .completed (.single .isPublic) (some (s.keyBehind? plan.object)) []
      [(plan.factory, s.signatureText (.of [plan.primitive] (s.typeOf id))),
        (plan.unbox, s.signatureText (.of [] plan.primitive))]
  | _ => .unread

/-- How a pending class is seen once it is completed. -/
def Completer.viewAfter (s : Store) (path : ClassPath) (flat : Name) (id : SymbolId)
    (c : Completer) : ClassView :=
  match path.get? flat with
  | some d =>
    match d.corrupt with
    | some reason => .failed (.badClassFile reason)
    | none => .completed d.modifiers (d.supertype.map some) (d.interfaces.map some) []
  | none => (c.standin?.map (standinView s id)).getD (.failed .notFound)

theorem Completer.Linked.signatures {s : Store} {root mc id : SymbolId} {plan : BoxPlan}
    (h : (Completer.box plan).Linked s mc) (hl : s.Linked root mc) (hid : s.HasSymbol id) :
    (∀ x ∈ (Signature.of [plan.primitive] (s.typeOf id)).types, s.HasType x) ∧
      ∀ x ∈ (Signature.of [] plan.primitive).types, s.HasType x := by
  constructor
  · simpa [Signature.types, Signature.of] using ⟨h.1, hl.hasType_typeOf hid⟩
  · simpa [Signature.types, Signature.of] using h.1

namespace Store

variable {s s' : Store} {root mc id : SymbolId} {flat : Name} {l : List Change} {path : ClassPath}
  {c : Completer} {o : Completed}

theorem Grows.viewAfter (hg : s.Grows l s') (h : s.Linked root mc) (hl : s.Layered)
    (hc : c.Linked s mc) (hid : s.HasSymbol id) :
    c.viewAfter s' path flat id = c.viewAfter s path flat id := by
  have hstandin : ∀ f, c.standin? = some f → f.standinView s' id = f.standinView s id := by
    intro f hf
    have hf' := hc.standin hf
    cases f with
    | emptyInterface object => simp only [Completer.standinView, hg.keyBehind? h hl hf']
    | box plan =>
      obtain ⟨hboxing, hunboxing⟩ := hf'.signatures h hid
      simp only [Completer.standinView, hg.keyBehind? h hl hf'.2.1, hg.keeps.typeOf hid,
        hg.signatureText h hl hboxing, hg.signatureText h hl hunboxing]
    | _ => rfl
  unfold Completer.viewAfter
  split
  · rfl
  · cases hf : c.standin? with
    | none => rfl
    | some f => exact hstandin f hf

theorem map_keyBehind? {f : TypeId → Option Name} {names : List Name} {tys : List TypeId}
    {R : Name → TypeId → Prop} (h : List.Forall₂ R names tys) (hR : ∀ n ty, R n ty → f ty = some n) :
    tys.map f = names.map some := by
  induction h with
  | nil => rfl
  | cons hty _ ih => rw [List.map_cons, List.map_cons, hR _ _ hty, ih]

theorem map_keyBehind?_option {f : TypeId → Option Name} {name : Option Name} {ty : Option TypeId}
    {R : Name → TypeId → Prop} (h : List.Forall₂ R name.toList ty.toList)
    (hR : ∀ n ty, R n ty → f ty = some n) : ty.map f = name.map some := by
  have hlist := map_keyBehind? h hR
  cases name <;> cases ty <;> simp_all

theorem view?_standIn (h : s.Linked root mc) (hl : s.Layered) {sym : Symbol} {info : ClassInfo}
    (hsym : s.symbol? id = some sym) (hb : sym.body = .cls info) (hcompleter : info.completer = none)
    (hunread : Phase.IsUnread sym.modifiers info) (hc : s.class? flat = some id) {f : Completer}
    (hf : f.IsStandin) (hlinked : f.Linked s mc) :
    (s.standIn id f).view? flat = some (f.standinView s id) := by
  have hshows : s.Shows id .empty info := ⟨sym, hsym, hunread.modifiers, hb⟩
  have hg := Grows.standIn (by simp [classInfo?_eq_some.2 ⟨sym, hsym, hb⟩])
    (h.hasType_typeOf hshows.hasSymbol) hlinked
  have hc' := hg.keeps.cls hc
  cases hf with
  | emptyInterface object =>
    have hshows' : (s.standIn id (.emptyInterface object)).Shows id _ _ :=
      (hshows.addModifiers (.ofFlags [.isPublic, .isInterface])).mapClass _
    rw [hshows'.view? hc']
    simp only [Store.view, hunread.members, hunread.interfaces, Option.map_some,
      hg.keyBehind? h hl hlinked, hunread.failure, hcompleter]
    rfl
  | box plan =>
    have hshows₀ : ((s.addModifiers id (.single .isPublic)).below id plan.object).Shows id _ _ :=
      (hshows.addModifiers (.single .isPublic)).mapClass _
    have hty₀ : ((s.addModifiers id (.single .isPublic)).below id plan.object).typeOf id =
        s.typeOf id := ((s.keeps_addModifiers ..).trans (keeps_below ..)).typeOf hshows.hasSymbol
    obtain ⟨scope, hshows', hviews⟩ := hshows₀.withBoxing (by simp [hunread.members]) (hg.layered hl)
    have hshows'' : (s.standIn id (.box plan)).Shows id _ _ := hshows'
    obtain ⟨hboxing, hunboxing⟩ := hlinked.signatures h hshows.hasSymbol
    have hmembers : (s.standIn id (.box plan)).memberViews scope =
        [(plan.factory, s.signatureText (.of [plan.primitive] (s.typeOf id))),
          (plan.unbox, s.signatureText (.of [] plan.primitive))] := by
      rw [← hg.signatureText h hl hboxing, ← hg.signatureText h hl hunboxing, ← hty₀]
      exact hviews
    rw [hshows''.view? hc']
    simp only [Store.view, hmembers, hunread.interfaces, Option.map_some,
      hg.keyBehind? h hl hlinked.2.1, hunread.failure, hcompleter]
    rfl

/-- The class that a completion is about is seen as was laid down. -/
theorem Completes.view? (h : s.Completes path flat id c o s') (hs : s.Linked root mc)
    (hr : s.Registered) (hl : s.Layered) (hs' : s'.Sound root mc) (hu : s.Unread id)
    (hc : s.class? flat = some id) (hlinked : c.Linked s mc) (hreads : c.Reads flat) :
    s'.view? flat = some (c.viewAfter s path flat id) := by
  have hc' := h.keeps.cls hc
  obtain ⟨sym, info, hsym, hb, hcompleter, hunread⟩ := hu
  have hshows : s.Shows id .empty info := ⟨sym, hsym, hunread.modifiers, hb⟩
  have hfailed : ∀ kind, (s.recordFailure id kind).view? flat = some (.failed kind) := by
    intro kind
    have hshows' : (s.recordFailure id kind).Shows id _ _ := hshows.mapClass _
    have hclass : (s.recordFailure id kind).class? flat = some id := hc
    rw [hshows'.view? hclass]
    simp only [Store.view, hunread.supertype, hunread.interfaces, hunread.members, hcompleter]
    rfl
  unfold Completer.viewAfter
  cases h with
  | @read d s₁ supertype interfaces found readable asked above beside =>
    have hkey : ∀ n ty, s₁.ClassType n ty →
        (s₁.filled id d.modifiers supertype interfaces).keyBehind? ty = some n := fun n ty hty =>
      hs'.keyBehind? ((keeps_filled ..).classType hty)
    have hshows' : (s₁.filled id d.modifiers supertype interfaces).Shows id _ _ :=
      ((hshows.entering hr asked.entering).addModifiers d.modifiers).mapClass _
    rw [hshows'.view? hc']
    simp only [found, readable, Store.view, map_keyBehind?_option above hkey, hunread.members,
      Option.map_some, map_keyBehind? beside hkey, hunread.failure, hcompleter]
    rfl
  | @stoodFor f missing standin =>
    simp only [missing, standin, Option.map_some, Option.getD_some]
    exact view?_standIn hs hl hsym hb hcompleter hunread hc (hreads.isStandin standin)
      (hlinked.standin standin)
  | @corrupt d reason found unreadable => simp only [found, unreadable, hfailed]
  | missing missing alone => simp only [missing, alone, hfailed, Option.map_none, Option.getD_none]

theorem Completes.view?_new (h : s.Completes path flat id c o s') (hr : s.Registered)
    (hc : s.class? flat = some id) {n : Name} (hnew : s.class? n = none) :
    s'.view? n = (s'.class? n).map fun _ => .unread := by
  have hmaps : ∀ {s' : Store}, s'.classes = s.classes →
      s'.view? n = (s'.class? n).map fun _ => .unread := by
    intro s' hclasses
    have hnone : s'.class? n = none := by rw [class?, hclasses]; exact hnew
    simp [Store.view?, hnone]
  cases h with
  | @read d s₁ supertype interfaces found readable asked above beside =>
    set s₂ := s₁.filled id d.modifiers supertype interfaces
    have hclass : s₂.class? n = s₁.class? n := rfl
    cases hx : s₁.class? n with
    | none => simp [Store.view?, hclass, hx]
    | some x =>
      rcases asked.entering.entered hr hx with hold | ⟨simple, ty, owner, hs⟩
      · exact absurd (hnew.symm.trans hold) (Option.some_ne_none _).symm
      · have hne : x ≠ id := by
          rintro rfl
          have hflat := (hr.entering asked.entering).flat_eq hx (asked.entering.keeps.cls hc)
          rw [hflat, hc] at hnew
          cases hnew
        have hs₂ := (sameClass_filled s₁ d.modifiers supertype interfaces hne _ _ rfl).2 hs
        rw [view?_eq (hclass.trans hx) hs₂ rfl, hclass, hx]
        rfl
  | @stoodFor f _ _ => exact hmaps (s.maps_standIn id f).1
  | corrupt _ _ => exact hmaps rfl
  | missing _ _ => exact hmaps rfl

end Store

/-- What a completion does to the views of classes. -/
theorem World.complete_view? {w : World} {root mc id : SymbolId} {flat : Name} {c : Completer}
    (h : w.store.Sound root mc) (hmc : w.store.HasSymbol mc) (hl : w.store.Layered)
    (hc : w.store.class? flat = some id) (hp : w.store.completer? id = some c) (n : Name) :
    (w.complete ClassPath.resolver id).2.store.view? n =
      if n = flat then some (c.viewAfter w.store w.path flat id)
      else if (w.store.class? n).isSome then w.store.view? n
      else ((w.complete ClassPath.resolver id).2.store.class? n).map fun _ => .unread := by
  obtain ⟨flat', hc', hreads⟩ := h.phased.pending hp not_false
  obtain rfl := h.registered.flat_eq hc' hc
  obtain ⟨p, hphase⟩ := h.phased.phase hc not_false
  obtain rfl : p = .lazy := hphase.completer?.1 (by simp [hp])
  obtain ⟨sym, info, hs, hb, hcompleter⟩ := completer?_eq_some.1 hp
  have hlinked := (h.linked.symbols id sym hs).completer info c hb hcompleter
  have hcompletes := complete_completes h.registered hp hreads
  have hdrop : w.store.Grows [] (w.store.dropCompleter id) :=
    w.store.grows_dropCompleter (by simp [classInfo?_eq_some.2 ⟨sym, hs, hb⟩])
  have hr := hdrop.registered h.registered
  have hc₁ := hdrop.keeps.cls hc
  split
  · next hn =>
    rw [hn, hcompletes.view? (h.linked.dropCompleter id) hr (hdrop.layered hl)
      (complete_advances h hmc id).sound hphase.dropCompleter hc₁ (hlinked.mono hdrop.keeps) hreads,
      hdrop.viewAfter h.linked hl hlinked (hasSymbol_of_symbol? hs)]
  · next hn =>
    cases hx : w.store.class? n with
    | none => exact hcompletes.view?_new hr hc₁ hx
    | some x =>
      obtain ⟨symx, infox, hsx, hbx, -⟩ := h.registered.cls hx
      have hne : x ≠ id := by
        rintro rfl
        exact hn (h.registered.flat_eq hx hc)
      refine (complete_grows h hp hreads).view? h hl hx ?_
      rw [complete_symbol? h.registered h.phased hsx hbx hne, hsx]

/-! ## Runs of completions -/

/-- The name of a pending class and the completer that is left on it. -/
def Store.pending? (s : Store) (id : SymbolId) : Option (Name × Completer) :=
  (s.classInfo? id).bind fun info => info.completer.map fun c => (info.flatName, c)

theorem Store.pending?_eq {s : Store} {id : SymbolId} {flat : Name} {c : Completer}
    (hr : s.Registered) (hc : s.class? flat = some id) (hp : s.completer? id = some c) :
    s.pending? id = some (flat, c) := by
  obtain ⟨sym, info, hs, hb, rfl, -⟩ := hr.cls hc
  obtain ⟨info', hinfo', hcompleter⟩ := Option.bind_eq_some_iff.1 hp
  obtain rfl := Option.some.inj ((classInfo?_eq_some.2 ⟨sym, hs, hb⟩).symm.trans hinfo')
  simp [Store.pending?, hinfo', hcompleter]

namespace Session

def outcomes (st : Session) : List SymbolId → List (SymbolId × Completed)
  | [] => []
  | id :: ids =>
    (id, (st.world.complete ClassPath.resolver id).1) :: (st.step (.complete id)).outcomes ids

theorem outcomes_concat (st : Session) (ids : List SymbolId) (id : SymbolId) :
    st.outcomes (ids ++ [id]) = st.outcomes ids ++
      [(id, ((st.run (ids.map .complete)).world.complete ClassPath.resolver id).1)] := by
  induction ids generalizing st with
  | nil => rfl
  | cons x ids ih => exact congrArg (_ :: ·) (ih (st.step (.complete x)))

/-- What a run of completions comes to, as the session says that it starts from. -/
structure Ran (st : Session) (ids : List SymbolId) (st' : Session) : Prop where
  path : st'.world.path = st.world.path
  grown : st.store.Grows (ids.flatMap fun id =>
    ((st.store.pending? id).map fun (flat, c) => c.changes st.world.path flat).getD []) st'.store
  /-- Classes that are not completed are left alone. -/
  others : ∀ {id sym info}, st.store.symbol? id = some sym → sym.body = .cls info → id ∉ ids →
    st'.store.symbol? id = some sym
  views : ∀ n, st'.store.view? n =
    match st.store.class? n with
    | none => (st'.store.class? n).map fun _ => .unread
    | some id =>
      if id ∈ ids then (st.store.pending? id).map fun (flat, c) =>
        c.viewAfter st.store st.world.path flat id
      else st.store.view? n

theorem Ran.refl (st : Session) : st.Ran [] st := by
  refine ⟨rfl, .refl, fun hs _ _ => hs, fun n => ?_⟩
  cases hc : st.store.class? n with
  | none => simp [Store.view?, hc]
  | some id => simp

section Ran

variable {st st₁ : Session} {ids : List SymbolId} {id : SymbolId} {flat : Name} {c : Completer}

theorem Ran.completer? (h : st.Ran ids st₁) (hid : id ∉ ids) (hp : st.store.completer? id = some c) :
    st₁.store.completer? id = some c := by
  obtain ⟨sym, info, hs, hb, hcompleter⟩ := completer?_eq_some.1 hp
  exact completer?_eq_some.2 ⟨sym, info, h.others hs hb hid, hb, hcompleter⟩

theorem Ran.view?_step (h : st.Ran ids st₁) (hr : st.Reachable) (hr₁ : st₁.Reachable) (hid : id ∉ ids)
    (hc : st.store.class? flat = some id) (hp : st.store.completer? id = some c) (n : Name) :
    (st₁.step (.complete id)).store.view? n =
      if n = flat then some (c.viewAfter st.store st.world.path flat id)
      else if (st₁.store.class? n).isSome then st₁.store.view? n
      else ((st₁.step (.complete id)).store.class? n).map fun _ => .unread := by
  have hs := hr.sound.store
  obtain ⟨sym, info, hsym, hb, hcompleter⟩ := completer?_eq_some.1 hp
  have hlinked := (hs.linked.symbols id sym hsym).completer info c hb hcompleter
  rw [← h.path, ← h.grown.viewAfter hs.linked hr.layered hlinked (hs.registered.hasSymbol hc)]
  exact World.complete_view? hr₁.sound.store hr₁.sound.methodClass hr₁.layered
    (h.grown.keeps.cls hc) (h.completer? hid hp) n

theorem Ran.step (h : st.Ran ids st₁) (hr : st.Reachable) (hr₁ : st₁.Reachable) (hid : id ∉ ids)
    (hc : st.store.class? flat = some id) (hp : st.store.completer? id = some c) :
    st.Ran (ids ++ [id]) (st₁.step (.complete id)) := by
  have hs := hr.sound.store
  have hs₁ := hr₁.sound.store
  have hpending := pending?_eq hs.registered hc hp
  refine ⟨(World.path_complete id st₁.world).trans h.path, ?_, fun {x} symx infox hsx hbx hx => ?_,
    fun n => ?_⟩
  · obtain ⟨flat', hc', hreads⟩ := hs.phased.pending hp not_false
    obtain rfl := hs.registered.flat_eq hc' hc
    have hstep := World.complete_grows hs₁ (h.completer? hid hp) hreads
    rw [h.path] at hstep
    rw [List.flatMap_append, List.flatMap_singleton, hpending]
    exact h.grown.trans hstep
  · rw [List.mem_append, List.mem_singleton, not_or] at hx
    exact World.complete_symbol? hs₁.registered hs₁.phased (h.others hsx hbx hx.1) hbx hx.2
  · have hviews := h.views n
    rw [h.view?_step hr hr₁ hid hc hp]
    cases hx : st.store.class? n with
    | none =>
      -- a class that was not there at the start is not the one that is completed
      have hn : n ≠ flat := by
        rintro rfl
        simp [hc] at hx
      simp only [hx] at hviews
      rw [if_neg hn]
      cases hx₁ : st₁.store.class? n with
      | none => simp
      | some y =>
        have hkept : (st₁.step (.complete id)).store.class? n = some y :=
          (hr₁.sound.advances (.complete id)).keeps.cls hx₁
        simp [hviews, hx₁, hkept]
    | some x =>
      have hx₁ := h.grown.keeps.cls hx
      simp only [hx] at hviews
      by_cases hn : n = flat
      · obtain rfl : id = x := by simpa [hn, hc] using hx
        simp [hn, hpending]
      · have hne : x ≠ id := by
          rintro rfl
          exact hn (hs.registered.flat_eq hx hc)
        simp [hn, hx₁, hviews, hne]

end Ran

/-- Distinct pending classes are completed one after the other. -/
theorem Reachable.ran {st : Session} (h : st.Reachable) {ids : List SymbolId} (hnd : ids.Nodup)
    (hp : ∀ id ∈ ids, (st.store.completer? id).isSome) : st.Ran ids (st.run (ids.map .complete)) := by
  induction ids using List.reverseRecOn with
  | nil => exact .refl st
  | append_singleton ids id ih =>
    obtain ⟨hnd', -, hid⟩ := List.nodup_append.1 hnd
    have hran := ih hnd' fun x hx => hp x (List.mem_append_left _ hx)
    obtain ⟨c, hcompleter⟩ := Option.isSome_iff_exists.1 (hp id (by simp))
    obtain ⟨flat, hc, -⟩ := h.sound.store.phased.pending hcompleter not_false
    have hrun : st.run ((ids ++ [id]).map .complete) =
        (st.run (ids.map .complete)).step (.complete id) := by
      rw [List.map_append, Session.run, List.foldl_append]
      rfl
    rw [hrun]
    exact hran.step h (h.run _) (fun hmem => hid id hmem id (by simp) rfl) hc hcompleter

/-- How each completion ends is laid down in the session that the run starts from. -/
theorem Reachable.outcomes_eq {st : Session} (h : st.Reachable) {ids : List SymbolId}
    (hnd : ids.Nodup) (hp : ∀ id ∈ ids, (st.store.completer? id).isSome) :
    st.outcomes ids = ids.map fun id => (id, ((st.store.pending? id).map fun (flat, c) =>
      c.outcome st.world.path flat id).getD (.ok ())) := by
  induction ids using List.reverseRecOn with
  | nil => rfl
  | append_singleton ids id ih =>
    obtain ⟨hnd', -, hid⟩ := List.nodup_append.1 hnd
    have hp' : ∀ x ∈ ids, (st.store.completer? x).isSome := fun x hx => hp x (List.mem_append_left _ hx)
    have hran := h.ran hnd' hp'
    obtain ⟨c, hcompleter⟩ := Option.isSome_iff_exists.1 (hp id (by simp))
    have hsound := h.sound.store
    obtain ⟨flat, hc, hreads⟩ := hsound.phased.pending hcompleter not_false
    have hcompleter' := hran.completer? (fun hmem => hid id hmem id (by simp) rfl) hcompleter
    have hout := (World.complete_completes (h.run _).sound.store.registered hcompleter' hreads).outcome_eq
    rw [hran.path] at hout
    rw [outcomes_concat, ih hnd' hp', List.map_append, hout]
    simp [pending?_eq hsound.registered hc hcompleter]

end Session

namespace Session

/-- Two classes that are resolved for the first time are pending, and they are not the same. -/
theorem Sound.resolveClass_both {st : Session} (h : st.Sound) {n₁ n₂ : Name}
    (hnew₁ : st.store.class? n₁ = none) (hnew₂ : st.store.class? n₂ = none)
    (hapart : ¬n₂.toList <+: n₁.toList) : ∃ id₁ id₂, [id₁, id₂].Nodup ∧ ∀ id ∈ [id₁, id₂],
      ((st.run [.resolveClass n₁, .resolveClass n₂]).store.completer? id).isSome := by
  have h₁ := h.step (.resolveClass n₁)
  obtain ⟨id₁, hc₁, hp₁⟩ := h.completer?_resolveClass hnew₁
  -- resolving the first name does not enter the second
  have hnew₂' : (st.step (.resolveClass n₁)).store.class? n₂ = none := by
    rw [← Option.not_isSome_iff_eq_none]
    intro hsome
    have hreg : (st.world.see n₁).store.Registered := h.store.registered
    rcases (ClassPath.askClass_entered n₁ hreg).only (.cls n₂) hsome with hold | hinside
    · have hold' : (st.store.class? n₂).isSome := hold
      simp [hnew₂] at hold'
    · exact hapart hinside.isPrefix
  obtain ⟨id₂, hc₂, hp₂⟩ := h₁.completer?_resolveClass hnew₂'
  have h₂ := h₁.step (.resolveClass n₂)
  obtain ⟨p, hphase⟩ := h₁.store.phased.phase hc₁ not_false
  obtain rfl : p = .lazy := hphase.completer?.1 (by simp [hp₁])
  have hne₂ : Op.resolveClass n₂ ≠ .complete id₁ := by simp
  have hpending₁ := (h₁.step_inPhase hne₂ hphase).completer?.2 rfl
  have hne : id₁ ≠ id₂ := by
    rintro rfl
    have hkept := (h₁.advances (.resolveClass n₂)).keeps.cls hc₁
    obtain rfl := h₂.store.registered.flat_eq hkept hc₂
    simp [hc₁] at hnew₂'
  exact ⟨id₁, id₂, by simp [hne], by simp [run, hpending₁, hp₂]⟩

end Session

/-- Two stores differ in their identities only: the same names are registered, there are as many
symbols and types, and every class is seen alike. -/
structure Store.Agree (s s' : Store) : Prop where
  extent : s.SameExtent s'
  views : ∀ flat, s.view? flat = s'.view? flat

namespace Session

/-- The order in which pending classes are completed shows neither in how each completion ends nor
in the classes that are left. -/
theorem Reachable.completions_commute {st : Session} (h : st.Reachable) {ids ids' : List SymbolId}
    (hnd : ids.Nodup) (hp : ∀ id ∈ ids, (st.store.completer? id).isSome) (hperm : ids.Perm ids') :
    (st.outcomes ids).Perm (st.outcomes ids') ∧
      (st.run (ids.map .complete)).store.Agree (st.run (ids'.map .complete)).store := by
  have hnd' := hperm.nodup_iff.1 hnd
  have hp' : ∀ id ∈ ids', (st.store.completer? id).isSome := fun id hid => hp id (hperm.mem_iff.2 hid)
  have hran := h.ran hnd hp
  have hran' := h.ran hnd' hp'
  have hlog := hperm.flatMap_right fun id =>
    ((st.store.pending? id).map fun (flat, c) => c.changes st.world.path flat).getD []
  refine ⟨?_, hran.grown.sameExtent hran'.grown h.filed hlog, fun n => ?_⟩
  · rw [h.outcomes_eq hnd hp, h.outcomes_eq hnd' hp']
    exact hperm.map _
  · rw [hran.views, hran'.views]
    cases st.store.class? n with
    | none =>
      have hiff : ((st.run (ids.map .complete)).store.class? n).isSome ↔
          ((st.run (ids'.map .complete)).store.class? n).isSome :=
        hran.grown.isSome_lookup?_congr hran'.grown h.filed hlog (.cls n)
      generalize (st.run (ids.map .complete)).store.class? n = a at hiff
      generalize (st.run (ids'.map .complete)).store.class? n = b at hiff
      cases a <;> cases b <;> simp_all
    | some id => simp only [hperm.mem_iff]

/-- Two classes that are each defined to be below the other, completed in either order. -/
theorem completions_commute_cycle : ∃ (t : Table) (w : World) (id₁ id₂ : SymbolId),
    Table.build ⟨true, .v17⟩ Messages.english ClassPath.resolver .empty = (.ok t, w) ∧
      let st := (Session.mk t w).run [
        .define "raven.language.Anything" (.below "raven.language.Object"),
        .define "raven.language.Object" (.below "raven.language.Anything"),
        .resolveClass "raven.language.Anything", .resolveClass "raven.language.Object"]
      [id₁, id₂].Nodup ∧ (∀ id ∈ [id₁, id₂], (st.store.completer? id).isSome) ∧
        (st.outcomes [id₁, id₂]).Perm (st.outcomes [id₂, id₁]) ∧
        (st.run [.complete id₁, .complete id₂]).store.Agree
          (st.run [.complete id₂, .complete id₁]).store := by
  obtain ⟨t, w, hbuild, hfurnished⟩ :=
    Table.building_furnished ⟨true, .v17⟩ Messages.english .empty
  have hdefined := (Reachable.built hbuild).run [
    .define "raven.language.Anything" (.below "raven.language.Object"),
    .define "raven.language.Object" (.below "raven.language.Anything")]
  have hanything : w.store.class? "raven.language.Anything" = none :=
    hfurnished.class?_core rfl (by decide)
  have hobject : w.store.class? "raven.language.Object" = none := hfurnished.class?_core rfl (by decide)
  obtain ⟨id₁, id₂, hnd, hp⟩ := hdefined.sound.resolveClass_both hanything hobject (by decide)
  exact ⟨t, w, id₁, id₂, hbuild, hnd, hp,
    (hdefined.run _).completions_commute hnd hp (.swap ..)⟩

end Session

end SymbolTable
