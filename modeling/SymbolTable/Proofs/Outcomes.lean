/-
The two ways in which reading a definition ends.

A completion that fails changes its own class and nothing else: what it
cannot read, it does not ask the resolver about. A completion that succeeds
asks for the superclass and the interfaces of the definition and fills the
class in from the answers. That is shown for every resolver that only adds
to the store and leaves the class alone while it is asked (`AddsAround`),
wherever it sends a name.
-/
import SymbolTable.Proofs.Allocation
import SymbolTable.Proofs.Fallbacks
import SymbolTable.Proofs.Permanence

namespace SymbolTable

namespace Store

variable {s s' s'' : Store} {id : SymbolId}

/-- The stores differ in one symbol at most. -/
structure SameBut (s : Store) (id : SymbolId) (s' : Store) : Prop where
  size : s'.symbols.size = s.symbols.size
  others : ∀ x, x ≠ id → s'.symbol? x = s.symbol? x
  types : s'.types = s.types
  classes : s'.classes = s.classes
  packages : s'.packages = s.packages

theorem sameBut_update (s : Store) (id : SymbolId) (f : Symbol → Symbol) :
    s.SameBut id (s.update id f) :=
  ⟨Array.size_modify, fun _ hx => symbol?_update_other s f hx, rfl, rfl, rfl⟩

theorem SameBut.trans (h : s.SameBut id s') (h' : s'.SameBut id s'') : s.SameBut id s'' where
  size := h'.size.trans h.size
  others x hx := (h'.others x hx).trans (h.others x hx)
  types := h'.types.trans h.types
  classes := h'.classes.trans h.classes
  packages := h'.packages.trans h.packages

end Store

/-! ## Failing -/

namespace World

open Store

variable {w : World} {id : SymbolId} {c : Completer} {flat : Name} {f : CompletionFailure}

/-- A failure comes before anything is asked for, so it is the same for every resolver. -/
theorem complete_of_error (hreg : w.store.Registered) (hp : w.store.completer? id = some c)
    (hreads : c.Reads flat) (hf : (w.complete ClassPath.resolver id).1 = .error f) :
    f.symbol = id ∧ f.name = flat ∧ ∀ r : Resolver, w.complete r id =
      (.error f, { w with store := (w.store.dropCompleter id).recordFailure id f.kind }) := by
  have hends := complete_completes hreg hp hreads
  rw [hf] at hends
  generalize (w.complete ClassPath.resolver id).2.store = s' at hends
  cases hends with
  | corrupt found unreadable =>
    refine ⟨rfl, rfl, fun r => ?_⟩
    simp [complete_eq_completedBy hp hreads, completedBy, readDefinition, found, unreadable]
  | missing missing alone =>
    refine ⟨rfl, rfl, fun r => ?_⟩
    simp [complete_eq_completedBy hp hreads, completedBy, readDefinition, missing, alone]

/-- What became of a world in which the completion of `id` failed with `f`. -/
structure FailsAlone (w : World) (id : SymbolId) (f : CompletionFailure) (w' : World) : Prop where
  symbol : f.symbol = id
  names : w'.names = w.names
  path : w'.path = w.path
  requests : w'.requests = w.requests
  store : w.store.SameBut id w'.store
  /-- Of the class itself, the completer is gone, the reason is kept, and there is an empty error
  scope. -/
  cls : ∃ sym info, w.store.symbol? id = some sym ∧ sym.body = .cls info ∧
    f.name = info.flatName ∧ w'.store.symbol? id = some { sym with body := .cls { info with
      completer := none, failure := some f.kind, members := some (.erroneous id) } }
  /-- No resolver is asked: it is the same with any other. -/
  unasked : ∀ r : Resolver, w.complete r id = (.error f, w')

end World

namespace Session

open Store

variable {st : Session} {id : SymbolId}

/-- A pending class is registered, it is to be read from its definition, and nothing was read of it
so far. -/
theorem Sound.pending (h : st.Sound) {c : Completer} (hp : st.store.completer? id = some c) :
    ∃ flat sym info, st.store.class? flat = some id ∧ c.Reads flat ∧
      st.store.symbol? id = some sym ∧ sym.body = .cls info ∧ info.flatName = flat ∧
      Phase.IsLazy sym.modifiers info := by
  obtain ⟨flat, hclass, hreads⟩ := h.store.phased.pending hp not_false
  obtain ⟨p, hphase⟩ := h.store.phased.phase hclass not_false
  obtain rfl : p = .lazy := hphase.completer?.1 (by simp [hp])
  obtain ⟨sym, info, hs, hb, hlazy⟩ := hphase
  obtain ⟨sym', info', hs', hb', hflat, -⟩ := h.store.registered.cls hclass
  obtain rfl := Option.some.inj (hs.symm.trans hs')
  obtain rfl := SymbolBody.cls.inj (hb.symm.trans hb')
  exact ⟨flat, sym, info, hclass, hreads, hs, hb, hflat, hlazy⟩

/-- A pending class stays pending until it is completed itself. -/
theorem Sound.pending_run (h : st.Sound) {c : Completer} (hp : st.store.completer? id = some c)
    {ops : List Op} (hops : .complete id ∉ ops) : ((st.run ops).store.completer? id).isSome := by
  obtain ⟨_, sym, info, -, -, hs, hb, -, hlazy⟩ := h.pending hp
  have hphase : st.store.InPhase id .lazy := ⟨sym, info, hs, hb, hlazy⟩
  exact (h.run_inPhase hops hphase).completer?.2 rfl

/-- A completion that fails is atomic: it marks its class and leaves all else alone. -/
theorem Reachable.failure_atomic (h : st.Reachable) {f : CompletionFailure} {w' : World}
    (hf : st.world.complete ClassPath.resolver id = (.error f, w')) :
    st.world.FailsAlone id f w' := by
  cases hp : st.store.completer? id with
  | none =>
    rw [World.complete_of_done hp] at hf
    cases hf
  | some c =>
    obtain ⟨flat, sym, info, hclass, hreads, hs, hb, hflat, hlazy⟩ := h.sound.pending hp
    obtain ⟨hsymbol, hname, hall⟩ :=
      World.complete_of_error h.sound.store.registered hp hreads (congrArg Prod.fst hf)
    obtain rfl := congrArg Prod.snd ((hall _).symm.trans hf)
    have hdropped := symbol?_mapClass hs hb fun info => { info with completer := none }
    have hmarked := symbol?_mapClass hdropped rfl fun info =>
      { info with failure := some f.kind, members := some (info.members.getD (.erroneous id)) }
    refine ⟨hsymbol, rfl, rfl, rfl, ?_, ⟨sym, info, hs, hb, hname.trans hflat.symm, ?_⟩, hall⟩
    · exact (sameBut_update _ id _).trans (sameBut_update _ id _)
    · refine hmarked.trans ?_
      simp [hlazy.members]

/-- A definition cannot be read, with an interface put behind it that does not stand in for it. -/
theorem failure_atomic_unreadable : ∃ (t : Table) (w w' : World) (id : SymbolId) (ty : TypeId),
    Table.build ⟨true, .v17⟩ Messages.english ClassPath.resolver .empty = (.ok t, w) ∧
      let st := (Session.mk t w).run [.resolveClass "raven.language.Anything",
        .standForInterface ty, .define "raven.language.Anything" (.unreadable "truncated")]
      let f : CompletionFailure := ⟨id, "raven.language.Anything", .badClassFile "truncated"⟩
      st.Reachable ∧ st.store.typeOf id = ty ∧
        st.world.complete ClassPath.resolver id = (.error f, w') ∧ st.world.FailsAlone id f w' := by
  obtain ⟨t, w, hbuild, hfurnished⟩ :=
    Table.building_furnished ⟨true, .v17⟩ Messages.english .empty
  have hnew : w.store.class? "raven.language.Anything" = none :=
    hfurnished.class?_core rfl (by decide)
  have hbuilt := Reachable.built hbuild
  obtain ⟨id, hclass, hp⟩ := hbuilt.sound.completer?_resolveClass hnew
  have h₁ := hbuilt.step (.resolveClass "raven.language.Anything")
  generalize hst : (Session.mk t w).step (.resolveClass "raven.language.Anything") = st at hclass hp h₁
  let ops : List Op := [.standForInterface (st.store.typeOf id),
    .define "raven.language.Anything" (.unreadable "truncated")]
  have hreach := h₁.run ops
  have hextends := h₁.sound.extends_run ops
  -- the class is still pending, with whatever was put behind its definition
  have hpending : ((st.run ops).store.completer? id).isSome := h₁.sound.pending_run hp (by simp [ops])
  obtain ⟨c, hc⟩ := Option.isSome_iff_exists.1 hpending
  obtain ⟨flat, _, _, hclass', hreads, -⟩ := hreach.sound.pending hc
  obtain rfl := hreach.sound.store.registered.flat_eq (hextends.advances.keeps.cls hclass) hclass'
  have hd : (st.run ops).world.path.get? "raven.language.Anything" =
      some (.unreadable "truncated") := by
    simp [get?_run, definitionAfter, ops, Op.edit?]
  obtain ⟨w', hfails⟩ : ∃ w', (st.run ops).world.complete ClassPath.resolver id =
      (.error ⟨id, "raven.language.Anything", .badClassFile "truncated"⟩, w') := by
    simp [World.complete_eq_completedBy hc hreads, World.completedBy, World.readDefinition, hd,
      ClassDef.unreadable]
  have htype := hextends.advances.keeps.typeOf (h₁.sound.store.registered.hasSymbol hclass)
  refine ⟨t, w, w', id, st.store.typeOf id, hbuild, ?_⟩
  rw [run, List.foldl_cons, hst]
  exact ⟨hreach, htype, hfails, hreach.failure_atomic hfails⟩

end Session

/-! ## What a resolver may do -/

/-- The symbol `sym'` is `sym`, except that its scope may have gained entries. -/
def Symbol.Enlarged (sym sym' : Symbol) : Prop :=
  ∃ f : Scope → Scope, (∀ sc : Scope, sc.Gains (f sc)) ∧ sym' = sym.mapMembers f

namespace Symbol.Enlarged

variable {sym sym' sym'' : Symbol}

theorem refl (sym : Symbol) : sym.Enlarged sym := by
  refine ⟨fun sc => sc, .refl, ?_⟩
  rcases sym with ⟨m, name, owner, ty, sentinel, body⟩
  cases body <;> simp [mapMembers]

theorem trans (h : sym.Enlarged sym') (h' : sym'.Enlarged sym'') : sym.Enlarged sym'' := by
  obtain ⟨f, hf, rfl⟩ := h
  obtain ⟨g, hg, rfl⟩ := h'
  refine ⟨g ∘ f, fun sc => (hf sc).trans (hg (f sc)), ?_⟩
  rcases sym with ⟨m, name, owner, ty, sentinel, body⟩
  cases body <;> simp [mapMembers]

theorem enter (sym : Symbol) (name : Name) (x : SymbolId) :
    sym.Enlarged (sym.mapMembers fun scope => scope.enter name x) :=
  ⟨_, fun sc => .enter sc name x, rfl⟩

theorem completer (h : sym.Enlarged sym') :
    sym'.classInfo?.bind (·.completer) = sym.classInfo?.bind (·.completer) := by
  obtain ⟨f, -, rfl⟩ := h
  rcases sym with ⟨m, name, owner, ty, sentinel, body⟩
  cases body <;> simp [mapMembers, classInfo?]

theorem ty (h : sym.Enlarged sym') : sym'.ty = sym.ty := by
  obtain ⟨f, -, rfl⟩ := h
  exact ty_of_outline (outline_mapMembers f sym)

end Symbol.Enlarged

namespace Store

variable {s s' s'' : Store}

/-- Whatever `s` has, `s'` has too, and only scopes have changed: they may have gained entries. -/
structure AddsTo (s s' : Store) : Prop where
  symbols : ∀ x sym, s.symbol? x = some sym → ∃ sym', s'.symbol? x = some sym' ∧ sym.Enlarged sym'
  types : ∀ ty, s.HasType ty → s'.type? ty = s.type? ty
  lookup? : ∀ q x, s.lookup? q = some x → s'.lookup? q = some x

theorem AddsTo.refl (s : Store) : s.AddsTo s :=
  ⟨fun _ sym hs => ⟨sym, hs, .refl sym⟩, fun _ _ => rfl, fun _ _ h => h⟩

theorem AddsTo.hasType (h : s.AddsTo s') {ty : TypeId} (hty : s.HasType ty) : s'.HasType ty := by
  obtain ⟨t, ht⟩ := hty.type?
  exact hasType_of_type? ((h.types ty hty).trans ht)

theorem AddsTo.trans (h : s.AddsTo s') (h' : s'.AddsTo s'') : s.AddsTo s'' where
  symbols x sym hs := by
    obtain ⟨sym', hs', hl⟩ := h.symbols x sym hs
    obtain ⟨sym'', hs'', hl'⟩ := h'.symbols x sym' hs'
    exact ⟨sym'', hs'', hl.trans hl'⟩
  types ty hty := (h'.types ty (h.hasType hty)).trans (h.types ty hty)
  lookup? q x hx := h'.lookup? q x (h.lookup? q x hx)

theorem AddsTo.hasSymbol (h : s.AddsTo s') {x : SymbolId} (hx : s.HasSymbol x) : s'.HasSymbol x := by
  obtain ⟨sym, hs⟩ := hx.symbol?
  obtain ⟨sym', hs', -⟩ := h.symbols x sym hs
  exact hasSymbol_of_symbol? hs'

theorem AddsTo.typeOf (h : s.AddsTo s') {x : SymbolId} (hx : s.HasSymbol x) :
    s'.typeOf x = s.typeOf x := by
  obtain ⟨sym, hs⟩ := hx.symbol?
  obtain ⟨sym', hs', hl⟩ := h.symbols x sym hs
  rw [typeOf_of_symbol? hs, typeOf_of_symbol? hs', hl.ty]

theorem AddsTo.completer? (h : s.AddsTo s') {x : SymbolId} {k : Completer}
    (hk : s.completer? x = some k) : s'.completer? x = some k := by
  obtain ⟨sym, info, hs, hb, hc⟩ := completer?_eq_some.1 hk
  obtain ⟨sym', hs', hl⟩ := h.symbols x sym hs
  rw [Store.completer?, classInfo?, hs', Option.bind_some, hl.completer]
  simp [Symbol.classInfo?, hb, hc]

theorem addsTo_withEntry {q : Request} (h : s.lookup? q = none) (owner : SymbolId) :
    s.AddsTo (s.withEntry q owner) where
  symbols x sym hs := by
    refine ⟨sym, ?_, .refl sym⟩
    rw [symbol?_withEntry, if_neg (hasSymbol_of_symbol? hs).ne_next, hs]
  types ty hty := by rw [type?_withEntry, if_neg hty.ne_next]
  lookup? p x hx := by
    have hne : p ≠ q := by
      rintro rfl
      simp [h] at hx
    rw [lookup?_withEntry, if_neg hne, hx]

theorem addsTo_mapMembers (s : Store) (owner : SymbolId) (name : Name) (member : SymbolId) :
    s.AddsTo (s.update owner (Symbol.mapMembers fun scope => scope.enter name member)) where
  symbols x sym hs := by
    rw [symbol?_update, hs]
    split
    · exact ⟨_, rfl, .enter sym name member⟩
    · exact ⟨sym, rfl, .refl sym⟩
  types _ _ := rfl
  lookup? q x hx := (lookup?_of_maps rfl rfl q).trans hx

theorem Enters.addsTo (he : Enters s s') : s.AddsTo s' := by
  cases he with
  | @package full owner fresh _ _ => exact addsTo_withEntry (q := .package full) fresh owner
  | @top flat owner fresh plain _ =>
    rw [withTopClass, ← Request.simpleName_top plain]
    exact (addsTo_withEntry (q := .cls flat) fresh owner).trans (addsTo_mapMembers ..)
  | @nested flat _ owner fresh inside _ =>
    rw [← Request.simpleName_nested inside]
    exact addsTo_withEntry (q := .cls flat) fresh owner

theorem Entering.addsTo (he : Entering s s') : s.AddsTo s' := by
  induction he with
  | refl => exact .refl s
  | tail _ hstep ih => exact ih.trans hstep.addsTo

end Store

namespace Resolver

open Store

variable {r : Resolver} {c : SymbolId} {w : World}

/-- Asks for classes one after another; the answers come in the order of the names. -/
def askEach (r : Resolver) : List Name → World → List SymbolId × World
  | [], w => ([], w)
  | flat :: flats, w =>
    let (id, w) := r.askClass flat (w.see flat)
    let (ids, w) := r.askEach flats w
    (id :: ids, w)

theorem askEach_cons (r : Resolver) (flat : Name) (flats : List Name) (w : World) :
    r.askEach (flat :: flats) w =
      ((r.askClass flat (w.see flat)).1 :: (r.askEach flats (r.askClass flat (w.see flat)).2).1,
        (r.askEach flats (r.askClass flat (w.see flat)).2).2) := rfl

theorem askEach_append (r : Resolver) (flats flats' : List Name) (w : World) :
    r.askEach (flats ++ flats') w =
      ((r.askEach flats w).1 ++ (r.askEach flats' (r.askEach flats w).2).1,
        (r.askEach flats' (r.askEach flats w).2).2) := by
  induction flats generalizing w with
  | nil => rfl
  | cons flat flats ih => simp only [List.cons_append, askEach_cons, ih]

theorem length_askEach (r : Resolver) (flats : List Name) (w : World) :
    (r.askEach flats w).1.length = flats.length := by
  induction flats generalizing w with
  | nil => rfl
  | cons flat flats ih => simp only [askEach_cons, List.length_cons, ih]

/-- The resolver leaves it to those who ask to note their requests. -/
def LeavesLog (r : Resolver) : Prop :=
  ∀ flat w, (r.resolveClass flat w).2.requests = w.requests

theorem LeavesLog.requests_askEach (h : r.LeavesLog) (flats : List Name) (w : World) :
    (r.askEach flats w).2.requests = w.requests ++ flats.map .cls := by
  induction flats generalizing w with
  | nil => simp [askEach]
  | cons flat flats ih =>
    have hfirst : (r.askClass flat (w.see flat)).2.requests = w.requests ++ [.cls flat] := h flat _
    rw [askEach_cons, ih, hfirst, List.append_assoc, List.map_cons, List.singleton_append]

/-- Asked for `flat`, the resolver only adds to the store, answers with a symbol that is there and
does not touch `c`. -/
structure AddsAt (r : Resolver) (c : SymbolId) (flat : Name) (w : World) : Prop where
  adds : w.store.AddsTo (r.askClass flat w).2.store
  inRange : (r.askClass flat w).2.store.HasSymbol (r.askClass flat w).1
  spares : (r.askClass flat w).2.store.symbol? c = w.store.symbol? c

/-- It does so whatever it is asked from `w` on. -/
def AddsAround (r : Resolver) (c : SymbolId) (w : World) : Prop :=
  ∀ flats flat, r.AddsAt c flat ((r.askEach flats w).2.see flat)

theorem AddsAround.after (h : r.AddsAround c w) (flats : List Name) :
    r.AddsAround c (r.askEach flats w).2 := by
  intro flats' flat
  have hat := h (flats ++ flats') flat
  rwa [askEach_append] at hat

theorem AddsAround.first (h : r.AddsAround c w) (flat : Name) : r.AddsAt c flat (w.see flat) :=
  h [] flat

theorem AddsAround.next (h : r.AddsAround c w) (flat : Name) :
    r.AddsAround c (r.askClass flat (w.see flat)).2 := h.after [flat]

/-- What one request keeps, any number of requests keep. -/
theorem AddsAround.of_step {P : World → Prop} (hw : P w)
    (hstep : ∀ w flat, P w → r.AddsAt c flat (w.see flat) ∧ P (r.askClass flat (w.see flat)).2) :
    r.AddsAround c w := by
  intro flats
  induction flats generalizing w with
  | nil => exact fun flat => (hstep w flat hw).1
  | cons flat flats ih => exact ih (hstep w flat hw).2

/-- What the requests leave. -/
structure Traced (r : Resolver) (c : SymbolId) (flats : List Name) (w : World) : Prop where
  adds : w.store.AddsTo (r.askEach flats w).2.store
  inRange : ∀ id ∈ (r.askEach flats w).1, (r.askEach flats w).2.store.HasSymbol id
  spares : (r.askEach flats w).2.store.symbol? c = w.store.symbol? c

theorem AddsAround.traced (h : r.AddsAround c w) (flats : List Name) : r.Traced c flats w := by
  induction flats generalizing w with
  | nil => exact ⟨.refl _, by simp [askEach], rfl⟩
  | cons flat flats ih =>
    have hat := h.first flat
    have hrest := ih (h.next flat)
    constructor
    · exact AddsTo.trans hat.adds hrest.adds
    · rw [askEach_cons]
      exact List.forall_mem_cons.2 ⟨hrest.adds.hasSymbol hat.inRange, hrest.inRange⟩
    · exact hrest.spares.trans hat.spares

/-- The types that are asked for are those of the answers, read at any later time. -/
theorem AddsAround.askTypes_eq (h : r.AddsAround c w) (flats : List Name) :
    r.askTypes flats w =
      ((r.askEach flats w).1.map (r.askEach flats w).2.store.typeOf, (r.askEach flats w).2) := by
  induction flats generalizing w with
  | nil => rfl
  | cons flat flats ih =>
    have hadds := ((h.next flat).traced flats).adds
    have htype := hadds.typeOf (h.first flat).inRange
    simp only [askTypes_cons, askType_eq, ih (h.next flat), askEach_cons, List.map_cons, htype]

/-- Asking for classes is no matter of how packages are resolved. -/
theorem askTypes_resolvePackage (r : Resolver) (resolvePackage : Name → World → SymbolId × World)
    (flats : List Name) (w : World) :
    { r with resolvePackage }.askTypes flats w = r.askTypes flats w := by
  have hask : ∀ flat w, { r with resolvePackage }.askClass flat w = r.askClass flat w :=
    fun _ _ => rfl
  induction flats generalizing w with
  | nil => rfl
  | cons flat flats ih => simp only [askTypes_cons, askType_eq, hask, ih]

end Resolver

/-! ## Reading -/

namespace Store

variable {s : Store} {id : SymbolId} {sym : Symbol} {info : ClassInfo}

/-- What reading a definition makes of a class of which nothing was read. -/
theorem symbol?_filled (hs : s.symbol? id = some sym) (hb : sym.body = .cls info)
    (hunread : Phase.IsUnread sym.modifiers info) (m : Modifiers) (supertype : Option TypeId)
    (interfaces : List TypeId) :
    (s.filled id m supertype interfaces).symbol? id = some { sym with
      modifiers := sym.modifiers ∪ m, body := .cls { info with
        supertype, interfaces := some interfaces, typeParams := some [],
        members := some (.members id), failure := none } } := by
  refine (symbol?_mapClass (symbol?_addModifiers hs m) hb _).trans ?_
  simp [hunread.typeParams, hunread.members, hunread.failure]

theorem sameBut_filled (s : Store) (id : SymbolId) (m : Modifiers) (supertype : Option TypeId)
    (interfaces : List TypeId) : s.SameBut id (s.filled id m supertype interfaces) :=
  (sameBut_update s id _).trans (sameBut_update _ id _)

theorem SameBut.completer? {s' : Store} (h : s.SameBut id s') {x : SymbolId} (hx : x ≠ id) :
    s'.completer? x = s.completer? x := by
  simp only [Store.completer?, classInfo?, h.others x hx]

end Store

namespace World

open Store

variable {w : World} {r : Resolver} {c : SymbolId} {k : Completer} {flat : Name} {d : ClassDef}
  {sym : Symbol} {info : ClassInfo}

/-- Asks for what the definition of `c` names, the superclass first, with the completer of `c`
already gone. -/
def askSupertypes (w : World) (r : Resolver) (c : SymbolId) (d : ClassDef) :
    List SymbolId × World :=
  r.askEach (d.supertype.toList ++ d.interfaces) { w with store := w.store.dropCompleter c }

/-- What became of a world in which `c` was completed from the definition `d`. -/
structure FilledFrom (w : World) (r : Resolver) (c : SymbolId) (d : ClassDef) (w' : World) : Prop where
  /-- The requests are for what the definition names, in its order. -/
  asked : r.LeavesLog →
    w'.requests = w.requests ++ (d.supertype.toList ++ d.interfaces).map .cls
  /-- The resolver is not asked for packages: it is the same with any other way to resolve them. -/
  classesOnly : ∀ resolvePackage, w.complete { r with resolvePackage } c = (.ok (), w')
  /-- The superclass is the first answer, if the definition has one, and the interfaces are the
  others. -/
  cls : ∃ sym info above beside, w.store.symbol? c = some sym ∧ sym.body = .cls info ∧
    (w.askSupertypes r c d).1 = above ++ beside ∧ above.length = d.supertype.toList.length ∧
    w'.store.symbol? c = some { sym with
      modifiers := sym.modifiers ∪ d.modifiers, body := .cls { info with
        supertype := above.head?.map w'.store.typeOf,
        interfaces := some (beside.map w'.store.typeOf), typeParams := some [],
        members := some (.members c), completer := none, failure := none } }
  /-- All else is as the requests left it. -/
  rest : (w.askSupertypes r c d).2.store.SameBut c w'.store
  names : w'.names = (w.askSupertypes r c d).2.names
  path : w'.path = (w.askSupertypes r c d).2.path
  requests : w'.requests = (w.askSupertypes r c d).2.requests
  /-- No other class is completed. -/
  pending : ∀ x k, x ≠ c → w.store.completer? x = some k → w'.store.completer? x = some k

/-- A definition that can be read is filled in from the answers. The type of an answer is read as
the answer comes, and later answers do not change it. -/
theorem readDefinition_of_readable (hc : w.store.classInfo? c = some info)
    (hd : w.path.get? flat = some d) (hreadable : d.corrupt = none) (hr : r.AddsAround c w) :
    ∃ above beside w', r.askEach (d.supertype.toList ++ d.interfaces) w = (above ++ beside, w') ∧
      above.length = d.supertype.toList.length ∧ w.readDefinition r flat c = (.ok (),
        { w' with store := w'.store.filled c d.modifiers (above.head?.map w'.store.typeOf)
                    (beside.map w'.store.typeOf) }) := by
  have happend := r.askEach_append d.supertype.toList d.interfaces w
  have hlength := r.length_askEach d.supertype.toList w
  have htypes := hr.askTypes_eq d.supertype.toList
  have htypes' := (hr.after d.supertype.toList).askTypes_eq d.interfaces
  obtain ⟨-, hinRange, hspares⟩ := hr.traced d.supertype.toList
  obtain ⟨hadds, -, hspares'⟩ := (hr.after d.supertype.toList).traced d.interfaces
  cases hfirst : r.askEach d.supertype.toList w with
  | mk above w₁ =>
    rw [hfirst] at happend hlength htypes htypes' hinRange hspares hadds hspares'
    cases hsecond : r.askEach d.interfaces w₁ with
    | mk beside w' =>
      rw [hsecond] at happend htypes' hadds hspares'
      have habove : above.map w₁.store.typeOf = above.map w'.store.typeOf :=
        List.map_congr_left fun id hid => (hadds.typeOf (hinRange id hid)).symm
      obtain ⟨sym, hs, hb⟩ := classInfo?_eq_some.1 hc
      have hc' : w'.store.classInfo? c = some info :=
        classInfo?_eq_some.2 ⟨sym, (hspares'.trans hspares).trans hs, hb⟩
      refine ⟨above, beside, w', happend, hlength, ?_⟩
      simp only [readDefinition, hd, hreadable, htypes, htypes', habove, List.head?_map]
      exact fillIn_eq hc' ..

/-- The completion of a class that can be read. -/
theorem complete_of_readable (hp : w.store.completer? c = some k) (hreads : k.Reads flat)
    (hd : w.path.get? flat = some d) (hreadable : d.corrupt = none)
    (hr : r.AddsAround c { w with store := w.store.dropCompleter c }) :
    ∃ above beside w', w.askSupertypes r c d = (above ++ beside, w') ∧
      above.length = d.supertype.toList.length ∧ w.complete r c = (.ok (),
        { w' with store := w'.store.filled c d.modifiers (above.head?.map w'.store.typeOf)
                    (beside.map w'.store.typeOf) }) := by
  obtain ⟨info, hc⟩ := classInfo?_dropCompleter hp
  obtain ⟨above, beside, w', hasked, hlength, hread⟩ := readDefinition_of_readable
    (w := { w with store := w.store.dropCompleter c }) hc hd hreadable hr
  refine ⟨above, beside, w', hasked, hlength, ?_⟩
  rw [complete_eq_completedBy hp hreads]
  simp only [completedBy, hd, hread]

theorem complete_resolvePackage (hp : w.store.completer? c = some k) (hreads : k.Reads flat)
    (r : Resolver) (resolvePackage : Name → World → SymbolId × World) :
    w.complete { r with resolvePackage } c = w.complete r c := by
  rw [complete_eq_completedBy hp hreads, complete_eq_completedBy hp hreads]
  simp only [completedBy, readDefinition, Resolver.askTypes_resolvePackage]

theorem complete_filledFrom (hp : w.store.completer? c = some k) (hreads : k.Reads flat)
    (hs : w.store.symbol? c = some sym) (hb : sym.body = .cls info)
    (hlazy : Phase.IsLazy sym.modifiers info) (hd : w.path.get? flat = some d)
    (hreadable : d.corrupt = none)
    (hr : r.AddsAround c { w with store := w.store.dropCompleter c }) :
    (w.complete r c).1 = .ok () ∧ w.FilledFrom r c d (w.complete r c).2 := by
  obtain ⟨above, beside, w', hasked, hlength, hcomplete⟩ :=
    complete_of_readable hp hreads hd hreadable hr
  obtain ⟨hadds, hinRange, hspares⟩ := hr.traced (d.supertype.toList ++ d.interfaces)
  rw [← askSupertypes, hasked] at hadds hinRange hspares
  have hdropped := symbol?_mapClass hs hb fun info => { info with completer := none }
  have hfilled := symbol?_filled (hspares.trans hdropped) rfl { hlazy.toIsUnread with } d.modifiers
    (above.head?.map w'.store.typeOf) (beside.map w'.store.typeOf)
  -- filling the class in changes no type, also if the class is an answer itself
  have htype : ∀ x ∈ above ++ beside, (w'.store.filled c d.modifiers
      (above.head?.map w'.store.typeOf) (beside.map w'.store.typeOf)).typeOf x = w'.store.typeOf x :=
    fun x hx => (keeps_filled ..).typeOf (hinRange x hx)
  have habove := Option.map_congr fun x hx => htype x (List.mem_append_left _ (List.mem_of_head? hx))
  have hbeside := List.map_congr_left fun x hx => htype x (List.mem_append_right _ hx)
  rw [hcomplete]
  refine ⟨rfl, ?_, fun p => (complete_resolvePackage hp hreads r p).trans hcomplete,
    ⟨sym, info, above, beside, hs, hb, by rw [hasked], hlength, ?_⟩, ?_, ?_, ?_, ?_, ?_⟩
  · intro hlog
    have hrequests := hlog.requests_askEach (d.supertype.toList ++ d.interfaces)
      { w with store := w.store.dropCompleter c }
    rwa [← askSupertypes, hasked] at hrequests
  · refine hfilled.trans ?_
    simp only [habove, hbeside]
  · rw [hasked]
    exact sameBut_filled ..
  · rw [hasked]
  · rw [hasked]
  · rw [hasked]
  · intro x k' hx hk'
    rw [(sameBut_filled ..).completer? hx]
    exact hadds.completer? (((sameBut_update ..).completer? hx).trans hk')

end World

/-! ## Redirecting -/

/-- What an answer of the class path's resolver comes with, whatever it is an answer to. -/
structure World.Answered (w : World) (id : SymbolId) (w' : World) : Prop where
  entering : w.store.Entering w'.store
  hasSymbol : w'.store.HasSymbol id

namespace World

variable {w : World}

theorem Answered.of_see {n : Name} {id : SymbolId} {w' : World} (h : (w.see n).Answered id w') :
    w.Answered id w' := ⟨h.entering, h.hasSymbol⟩

theorem enterClass_answered (hreg : w.store.Registered) (flat : Name) :
    w.Answered (w.enterClass flat).1 (w.enterClass flat).2 := by
  have hentered := w.enterClass_entered flat hreg.root
  exact ⟨hentered.entering, (hreg.entering hentered.entering).hasSymbol hentered.found⟩

theorem enterPackage_answered (hreg : w.store.Registered) (full : Name) :
    w.Answered (w.enterPackage full).1 (w.enterPackage full).2 := by
  have hentered := w.enterPackage_entered full hreg.root
  exact ⟨hentered.entering, (hreg.entering hentered.entering).hasSymbol_package hentered.found⟩

end World

namespace ClassPath

theorem redirected_answered (redirects : OrderedMap Name Redirect) {w : World}
    (hreg : w.store.Registered) (flat : Name) :
    w.Answered ((redirected redirects).resolveClass flat w).1
      ((redirected redirects).resolveClass flat w).2 := by
  simp only [redirected]
  cases redirects.get? flat with
  | none => exact World.enterClass_answered hreg flat
  | some redirect =>
    rcases redirect with other | full | id
    · exact .of_see (World.enterClass_answered (w := w.see other) hreg other)
    · exact .of_see (World.enterPackage_answered (w := w.see full) hreg full)
    · by_cases hid : id.index < w.store.symbols.size
      · simp only [hid, if_true]
        exact ⟨.refl, hid⟩
      · simp only [hid, if_false]
        exact World.enterClass_answered hreg flat

theorem redirected_leavesLog (redirects : OrderedMap Name Redirect) :
    (redirected redirects).LeavesLog := by
  intro flat w
  simp only [redirected]
  cases redirects.get? flat with
  | none => exact w.requests_enterClassIn flat _
  | some redirect =>
    rcases redirect with other | full | id
    · exact (w.see other).requests_enterClassIn other _
    · exact (w.see full).requests_enterPackage full
    · by_cases hid : id.index < w.store.symbols.size
      · simp only [hid, if_true]
      · simp only [hid, if_false]
        exact w.requests_enterClassIn flat _

/-- The class path's resolver adds to the store and leaves every class alone, wherever it sends a
name. -/
theorem redirected_addsAround (redirects : OrderedMap Name Redirect) {w : World}
    (hreg : w.store.Registered) {c : SymbolId} {info : ClassInfo}
    (hc : w.store.classInfo? c = some info) : (redirected redirects).AddsAround c w := by
  refine .of_step (P := fun w => w.store.Registered ∧ w.store.classInfo? c = some info)
    ⟨hreg, hc⟩ fun w flat ⟨hreg, hc⟩ => ?_
  obtain ⟨hentering, hin⟩ := redirected_answered redirects
    (w := { w.see flat with requests := w.requests ++ [.cls flat] }) hreg flat
  obtain ⟨sym, hs, hb⟩ := Store.classInfo?_eq_some.1 hc
  have hspares := hentering.symbol? hreg hs (by simp [hb])
  exact ⟨⟨hentering.addsTo, hin, hspares.trans hs.symm⟩, hreg.entering hentering,
    hentering.classInfo? hreg hc⟩

end ClassPath

namespace Session

open Store

variable {st : Session}

/-- A class is completed exactly as its definition says, by every resolver that only adds to the
store and leaves the class alone. -/
theorem Reachable.completion_exact (h : st.Reachable) {r : Resolver} {c : SymbolId} {k : Completer}
    {flat : Name} {d : ClassDef} (hc : st.store.class? flat = some c)
    (hp : st.store.completer? c = some k) (hd : st.world.path.get? flat = some d)
    (hreadable : d.corrupt = none)
    (hr : r.AddsAround c { st.world with store := st.store.dropCompleter c }) :
    (st.world.complete r c).1 = .ok () ∧ st.world.FilledFrom r c d (st.world.complete r c).2 := by
  obtain ⟨flat', sym, info, hc', hreads, hs, hb, -, hlazy⟩ := h.sound.pending hp
  obtain rfl := h.sound.store.registered.flat_eq hc hc'
  exact World.complete_filledFrom hp hreads hs hb hlazy hd hreadable hr

/-- A class that is below itself, with a package for an interface, which it names twice. -/
theorem completion_exact_cycle : ∃ (t : Table) (w : World) (c : SymbolId),
    Table.build ⟨true, .v17⟩ Messages.english ClassPath.resolver .empty = (.ok t, w) ∧
      let d : ClassDef := ⟨.single .isPublic, some "raven.language.Anything",
        ["q.I", "raven.language.Anything", "q.I"], none⟩
      let st := (Session.mk t w).run [.resolveClass "raven.language.Anything",
        .define "raven.language.Anything" d]
      let r := ClassPath.redirected (OrderedMap.empty.insert "q.I" (.package "p"))
      st.Reachable ∧ st.store.class? "raven.language.Anything" = some c ∧
        st.store.completer? c = some (.classFile "raven.language.Anything") ∧
        st.world.path.get? "raven.language.Anything" = some d ∧
        r.AddsAround c { st.world with store := st.store.dropCompleter c } ∧
        (st.world.complete r c).1 = .ok () ∧ st.world.FilledFrom r c d (st.world.complete r c).2 ∧
        (st.world.complete r c).2.requests = st.world.requests ++ [.cls "raven.language.Anything",
          .cls "q.I", .cls "raven.language.Anything", .cls "q.I"] := by
  obtain ⟨t, w, hbuild, hfurnished⟩ :=
    Table.building_furnished ⟨true, .v17⟩ Messages.english .empty
  have hnew : w.store.class? "raven.language.Anything" = none :=
    hfurnished.class?_core rfl (by decide)
  have hbuilt := Reachable.built hbuild
  obtain ⟨c, hclass, hp⟩ := hbuilt.sound.completer?_resolveClass hnew
  let d : ClassDef := ⟨.single .isPublic, some "raven.language.Anything",
    ["q.I", "raven.language.Anything", "q.I"], none⟩
  let st := (Session.mk t w).run [.resolveClass "raven.language.Anything",
    .define "raven.language.Anything" d]
  have hreach : st.Reachable := hbuilt.run _
  have hd : st.world.path.get? "raven.language.Anything" = some d := by
    simp [st, get?_run, definitionAfter, Op.edit?]
  obtain ⟨info, hinfo⟩ := classInfo?_dropCompleter (s := st.store) hp
  have hr := ClassPath.redirected_addsAround (OrderedMap.empty.insert "q.I" (.package "p"))
    (w := { st.world with store := st.store.dropCompleter c })
    (hreach.sound.store.registered.of_maps (keeps_dropCompleter _ c) rfl rfl) hinfo
  obtain ⟨hok, hfilled⟩ := hreach.completion_exact hclass hp hd rfl hr
  exact ⟨t, w, c, hbuild, hreach, hclass, hp, hd, hr, hok, hfilled,
    hfilled.asked (ClassPath.redirected_leavesLog _)⟩

end Session

end SymbolTable
