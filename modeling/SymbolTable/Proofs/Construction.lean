/-
Building a table over the class path.

Every step of the construction succeeds, whatever the class path holds.
`Underway` is what holds between two steps, from the moment the platform
classes are resolved: the store is sound, every class but those dealt with
is lazy, and a log says what was added. Main statement: a table is always
built; it is `Built`, and it is `Furnished` with what its options ask for.
-/
import SymbolTable.Proofs.Filing
import SymbolTable.Proofs.Groundwork
import SymbolTable.Proofs.OperatorEntries

namespace SymbolTable

open Build TableM Store

namespace Store

variable {s s' : Store} {root mc id : SymbolId} {supertype : TypeId} {done : List Name}

/-! ## Marked classes -/

/-- The store with a class stripped of its completer and given the modifiers of a marker. -/
def unread (s : Store) (id : SymbolId) : Store :=
  (s.dropCompleter id).update id fun symbol => { symbol with modifiers := markerModifiers }

/-- The store in which a class is a complete annotation. -/
def marked (s : Store) (id : SymbolId) (supertype : TypeId) : Store :=
  (s.unread id).update id (Symbol.mapClass fun info =>
    { info with
      members := some (.members id)
      typeParams := some []
      supertype := some supertype
      interfaces := some [] })

theorem keeps_unread (s : Store) (id : SymbolId) : s.Keeps (s.unread id) :=
  (s.keeps_dropCompleter id).trans (keeps_update _ _ fun _ _ => rfl)

theorem keeps_marked (s : Store) (id : SymbolId) (supertype : TypeId) :
    s.Keeps (s.marked id supertype) :=
  (s.keeps_unread id).trans (keeps_mapClass _ _ (by simp))

theorem symbol?_unread {sym : Symbol} {info : ClassInfo} (hs : s.symbol? id = some sym)
    (hb : sym.body = .cls info) : (s.unread id).symbol? id =
      some { sym with modifiers := markerModifiers, body := .cls { info with completer := none } } := by
  rw [unread, symbol?_update_self, dropCompleter, symbol?_mapClass hs hb, Option.map_some]

theorem symbol?_marked_other (s : Store) {x : SymbolId} (hne : x ≠ id) (supertype : TypeId) :
    (s.marked id supertype).symbol? x = s.symbol? x := by
  rw [marked, symbol?_update_other _ _ hne, unread, symbol?_update_other _ _ hne, dropCompleter,
    symbol?_update_other _ _ hne]

theorem InPhase.marked (h : s.InPhase id .lazy) (supertype : TypeId) :
    (s.marked id supertype).InPhase id .completed := by
  obtain ⟨sym, info, hs, hb, hlazy⟩ := h
  exact ⟨_, _, symbol?_mapClass (symbol?_unread hs hb) rfl _, rfl, rfl, hlazy.failure, _, rfl, rfl⟩

theorem Linked.marked (h : s.Linked root mc) (hsup : s.HasType supertype) :
    (s.marked id supertype).Linked root mc := by
  have hdrop := h.dropCompleter id
  have hunread : (s.unread id).Linked root mc :=
    hdrop.update (fun _ _ => rfl) fun sym hs => (hdrop.symbols id sym hs).setModifiers _
  refine hunread.mapClass (by simp) fun info hinfo => ?_
  exact { hinfo with
    supertype := fun _ he => Option.some.inj he ▸ (s.keeps_unread id).hasType hsup
    interfaces := by simp
    typeParams := by simp
    members := fun _ he => Option.some.inj he ▸ Scope.linked_members _ id }

theorem grows_marked (hid : (s.classInfo? id).isSome) (supertype : TypeId) :
    s.Grows [] (s.marked id supertype) := by
  have hunread : s.Grows [] (s.unread id) :=
    (s.grows_dropCompleter hid).update ((s.keeps_dropCompleter id).isSome_classInfo? hid) fun _ => rfl
  exact hunread.mapClass ((s.keeps_unread id).isSome_classInfo? hid) (by simp)

theorem Sound.marked (h : s.Sound root mc) (hid : s.InPhase id .lazy) (hsup : s.HasType supertype) :
    s.Advances root mc (s.marked id supertype) where
  keeps := s.keeps_marked id supertype
  spares x sym info hs hb hnone := by
    have hne : x ≠ id := by
      rintro rfl
      have hc := hid.completer?.2 rfl
      simp [completer?, classInfo?_eq_some.2 ⟨sym, hs, hb⟩, hnone] at hc
    rw [symbol?_marked_other s hne, hs]
  sound := by
    refine ⟨h.linked.marked hsup, h.registered.of_maps (s.keeps_marked id supertype) rfl rfl, ?_⟩
    refine h.phased.of_completed rfl (fun y hy sym _ _ => ?_) (hid.marked supertype)
    rw [symbol?_marked_other s hy]

/-! ## Classes left lazy -/

/-- A completer is pending on every registered class but those listed. -/
def Pending (s : Store) (done : List Name) : Prop :=
  ∀ flat id, s.class? flat = some id → flat ∉ done → (s.completer? id).isSome

theorem Pending.enters (h : s.Pending done) (hr : s.Registered) (he : s.Enters s') :
    s'.Pending done := by
  intro flat id hc hd
  rcases he.class? hr hc with hc | ⟨-, _, _, hs⟩
  · obtain ⟨c, hp⟩ := Option.isSome_iff_exists.1 (h flat id hc hd)
    obtain ⟨info, hinfo, hcompleter⟩ := Option.bind_eq_some_iff.1 hp
    simp [completer?, Entering.classInfo? hr (.single he) hinfo, hcompleter]
  · simp [completer?, classInfo?, hs, Symbol.entered, Symbol.classInfo?]

theorem Pending.entering (h : s.Pending done) (hr : s.Registered) (he : s.Entering s') :
    s'.Pending done := by
  induction he with
  | refl => exact h
  | tail hpath hstep ih => exact ih.enters (hr.entering hpath) hstep

/-- Nothing is registered, and registered classes keep a completer if they have one. -/
theorem Pending.of_same (h : s.Pending done) (hmap : s'.classes = s.classes)
    (hkeep : ∀ id, (s.completer? id).isSome → (s'.completer? id).isSome) : s'.Pending done :=
  fun flat id hc hd => hkeep id (h flat id (by simpa only [class?, hmap] using hc) hd)

theorem completer?_of_symbol? {id : SymbolId} (h : s'.symbol? id = s.symbol? id) :
    s'.completer? id = s.completer? id := by
  simp [completer?, classInfo?, h]

theorem Pending.addSymbol (h : s.Pending done) (symbol : Symbol) :
    (s.addSymbol symbol).2.Pending done := by
  refine h.of_same rfl fun id hid => ?_
  obtain ⟨c, hp⟩ := Option.isSome_iff_exists.1 hid
  obtain ⟨sym, -, hs, -⟩ := completer?_eq_some.1 hp
  have hsame : (s.addSymbol symbol).2.symbol? id = s.symbol? id := by
    rw [symbol?_addSymbol, if_neg (hasSymbol_of_symbol? hs).ne_next]
  rwa [completer?_of_symbol? hsame]

theorem Pending.extend (h : s.Pending done) (t : Ty) (symbol : Symbol) :
    (s.extend t symbol).Pending done :=
  Pending.addSymbol (s := (s.addType t).2) h symbol

theorem Pending.fallBack (h : s.Pending done) (id : SymbolId) (f : Completer) :
    (s.fallBack id f).Pending done := by
  unfold Store.fallBack
  split
  · exact h
  · next base hbase =>
    refine h.of_same rfl fun x hx => ?_
    by_cases hid : x = id
    · subst hid
      obtain ⟨sym, info, hs, hb, -⟩ := completer?_eq_some.1 hbase
      have hset := symbol?_mapClass hs hb fun info => { info with completer := some (.orElse base f) }
      simp [setCompleter, completer?, classInfo?, hset, Symbol.classInfo?]
    · rwa [setCompleter, completer?_of_symbol? (symbol?_update_other s _ hid)]

/-- A class on which nothing is pending changes. -/
theorem Pending.update (h : s.Pending done) {id : SymbolId} (hid : s.completer? id = none)
    (f : Symbol → Symbol) : (s.update id f).Pending done := by
  refine h.of_same rfl fun x hx => ?_
  have hne : x ≠ id := by
    intro heq
    simp [heq, hid] at hx
  rwa [completer?_of_symbol? (symbol?_update_other s f hne)]

/-- A class that becomes a marker is dealt with. -/
theorem Pending.marked (h : s.Pending done) (hr : s.Registered) {flat : Name} {id : SymbolId}
    (hc : s.class? flat = some id) (supertype : TypeId) :
    (s.marked id supertype).Pending (flat :: done) := by
  intro n x hn hnd
  have hn' : s.class? n = some x := hn
  have hne : x ≠ id := by
    rintro rfl
    exact hnd (hr.flat_eq hn' hc ▸ List.mem_cons_self ..)
  rw [completer?_of_symbol? (symbol?_marked_other s hne supertype)]
  exact h n x hn' fun hm => hnd (List.mem_cons_of_mem _ hm)

/-- Operators go to a class on which nothing is pending. -/
theorem Pending.operators (h : s.Pending done) {root mc predef : SymbolId}
    {entries : List OperatorEntry} (hp : s.InPhase predef .completed)
    (ho : OperatorsEntered root mc predef s entries s') : s'.Pending done := by
  refine h.of_same ho.maps fun id hid => ?_
  have hne : id ≠ predef := by
    rintro rfl
    have hlazy := hp.completer?.1 hid
    cases hlazy
  obtain ⟨c, hc⟩ := Option.isSome_iff_exists.1 hid
  obtain ⟨sym, info, hs, hb, hc⟩ := completer?_eq_some.1 hc
  rw [completer?_eq_some.2 ⟨sym, info, (ho.same id hne sym info hb).2 hs, hb, hc⟩]
  rfl

end Store

/-! ## Between two steps -/

/-- What holds of the store between two steps of the construction. `base` is the store with the
platform classes, and the log says what was added to it. -/
structure Underway (base : Store) (log : List Change) (done : List Name) (s : Store) : Prop where
  sound : s.Sound ⟨0⟩ pseudoIds.method
  grown : base.Grows log s
  pending : s.Pending done
  settled : ∀ flat ∈ done, ∃ id, s.class? flat = some id ∧ s.InPhase id .completed
  array : s.InPhase pseudoIds.array .completed
  predef : s.InPhase pseudoIds.predef .completed
  untouched : s.symbol? pseudoIds.predef = base.symbol? pseudoIds.predef

namespace Underway

variable {base s s' : Store} {log l : List Change} {done : List Name}

theorem keeps (h : Underway base log done s) : base.Keeps s := h.grown.keeps

theorem of_settled (h : Underway base log done s) (ha : s.Advances ⟨0⟩ pseudoIds.method s')
    (hg : s.Grows l s') {done' : List Name} (hp : s'.Pending done')
    (hd : ∀ flat ∈ done', flat ∈ done ∨ ∃ id, s'.class? flat = some id ∧ s'.InPhase id .completed) :
    Underway base (log ++ l) done' s' where
  sound := ha.sound
  grown := h.grown.trans hg
  pending := hp
  settled flat hflat := by
    rcases hd flat hflat with hold | hnew
    · obtain ⟨id, hc, hphase⟩ := h.settled flat hold
      exact ⟨id, ha.keeps.cls hc, ha.spares.inPhase hphase (by simp)⟩
    · exact hnew
  array := ha.spares.inPhase h.array (by simp)
  predef := ha.spares.inPhase h.predef (by simp)
  untouched := by
    obtain ⟨sym, info, hs, hb, hc, -⟩ := h.predef
    rw [ha.spares _ sym info hs hb hc, ← h.untouched, hs]

theorem of_advances (h : Underway base log done s) (ha : s.Advances ⟨0⟩ pseudoIds.method s')
    (hg : s.Grows l s') (hp : s'.Pending done) : Underway base (log ++ l) done s' :=
  h.of_settled ha hg hp fun _ => .inl

/-- The array class changes, and no other class does. -/
theorem of_array (h : Underway base log done s) {f : Symbol → Symbol}
    (hf : ∀ sym, (f sym).outline = sym.outline)
    (hs : (s.update pseudoIds.array f).Sound ⟨0⟩ pseudoIds.method)
    (ha : (s.update pseudoIds.array f).InPhase pseudoIds.array .completed) :
    Underway base log done (s.update pseudoIds.array f) where
  sound := hs
  grown := by
    obtain ⟨sym, info, hsym, hb, -⟩ := h.array
    exact h.grown.update (by simp [classInfo?_eq_some.2 ⟨sym, hsym, hb⟩]) hf
  pending := by
    refine h.pending.update ?_ f
    rw [← Option.not_isSome_iff_eq_none, h.array.completer?]
    simp
  settled flat hflat := by
    obtain ⟨id, hc, hphase⟩ := h.settled flat hflat
    refine ⟨id, hc, ?_⟩
    by_cases hid : id = pseudoIds.array
    · exact hid ▸ ha
    · exact (sameClass_update s f hid).inPhase.2 hphase
  array := ha
  predef := (sameClass_update s f (by decide)).inPhase.2 h.predef
  untouched := (symbol?_update_other s f (by decide)).trans h.untouched

theorem updateArray (h : Underway base log done s) (f : ClassInfo → ClassInfo)
    (hnames : ∀ info, (f info).fullName = info.fullName ∧ (f info).flatName = info.flatName ∧
      (f info).erroneous = info.erroneous)
    (hf : ∀ info, info.Linked s pseudoIds.method pseudoIds.array →
      (f info).Linked s pseudoIds.method pseudoIds.array)
    (hdone : ∀ info, Phase.IsCompleted info → Phase.IsCompleted (f info)) :
    ∃ s', s.updateClass pseudoIds.array f = .ok s' ∧ Underway base log done s' ∧ s.Keeps s' := by
  obtain ⟨sym, info, hs, hb, -⟩ := h.array
  have ha := h.array.mapClass hdone
  exact ⟨_, updateClass_eq (classInfo?_eq_some.2 ⟨sym, hs, hb⟩) f,
    h.of_array (Symbol.outline_mapClass hnames) (h.sound.mapClass hnames hf ha) ha,
    keeps_mapClass s _ hnames⟩

/-- The array class gets a member. -/
theorem enterArrayMember (h : Underway base log done s) {x : SymbolId} (hx : s.HasSymbol x) :
    ∃ s', s.enterMember pseudoIds.array x = .ok s' ∧ Underway base log done s' ∧ s.Keeps s' :=
  ⟨_, h.array.enterMember x, h.of_array (Symbol.outline_mapMembers _)
    (h.sound.enterMember h.array hx) (h.array.mapMembers _ x), keeps_mapMembers s _ _⟩

theorem asked (h : Underway base log done s) {flats : List Name} (ha : s.Asked (flats.map .cls) s') :
    Underway base (log ++ Change.asking flats) done s' :=
  h.of_advances (h.sound.entering ha.entering) (Grows.refl.asking ha)
    (h.pending.entering h.sound.registered ha.entering)

theorem fallBack (h : Underway base log done s) {f : Completer} (hf : f.IsStandin)
    (hl : f.Linked s pseudoIds.method) (id : SymbolId) : Underway base log done (s.fallBack id f) := by
  have h' := h.of_advances (h.sound.fallBack id hf hl) (s.grows_fallBack id f) (h.pending.fallBack id f)
  rwa [List.append_nil] at h'

/-- Operators change no class but the predefined one. -/
theorem operators (h : Underway base log done s) {entries : List OperatorEntry}
    (ho : OperatorsEntered ⟨0⟩ pseudoIds.method pseudoIds.predef s entries s') : s'.Pending done ∧
      ∀ flat ∈ done, ∃ id, s'.class? flat = some id ∧ s'.InPhase id .completed := by
  refine ⟨h.pending.operators h.predef ho, fun flat hflat => ?_⟩
  obtain ⟨id, hc, hphase⟩ := h.settled flat hflat
  refine ⟨id, ho.keeps.cls hc, ?_⟩
  by_cases hid : id = pseudoIds.predef
  · exact hid ▸ ho.completed
  · exact (ho.same id hid).inPhase.2 hphase

end Underway

/-! ## Resolving -/

section Steps

variable {base : Store} {log : List Change} {done : List Name} {w : World}

theorem ask_ensures (h : Underway base log done w.store) (flat : Name) :
    (ask ClassPath.resolver flat).Ensures w fun id w' =>
      Underway base (log ++ Change.asking [flat]) done w'.store ∧ w.store.Keeps w'.store ∧
        w'.store.class? flat = some id := by
  have hreg : (w.see flat).store.Registered := h.sound.registered
  have hasked := ClassPath.askClass_asked flat hreg
  exact ensures_total ⟨h.asked hasked, hasked.entering.keeps, (ClassPath.askClass_entered flat hreg).found⟩

theorem askType_ensures (h : Underway base log done w.store) (flat : Name) :
    (askType ClassPath.resolver flat).Ensures w fun ty w' =>
      Underway base (log ++ Change.asking [flat]) done w'.store ∧ w.store.Keeps w'.store ∧
        w'.store.ClassType flat ty := by
  obtain ⟨hasked, hty⟩ := ClassPath.askType_asked flat h.sound.registered
  exact ensures_total ⟨h.asked hasked, hasked.entering.keeps, hty⟩

theorem askTier_ensures (h : Underway base log done w.store) (entries : List CatalogEntry) :
    (total (ClassPath.resolver.askTier entries)).Ensures w fun tier w' =>
      Underway base (log ++ Change.asking (Catalog.flatNames entries)) done w'.store ∧
        w.store.Keeps w'.store ∧ tier.Resolves w'.store entries := by
  obtain ⟨hasked, htier⟩ := ClassPath.askTier_asked entries h.sound.registered
  exact ensures_total ⟨h.asked hasked, hasked.entering.keeps, htier⟩

/-- What is added for the core library. -/
def coreAdditions (options : Options) : List Change :=
  if options.selfHosting then [] else Change.asking (Catalog.flatNames Catalog.core)

theorem enterCore_ensures (h : Underway base log done w.store) (options : Options) :
    (enterCore ClassPath.resolver options).Ensures w fun core w' =>
      Underway base (log ++ coreAdditions options) done w'.store ∧ w.store.Keeps w'.store ∧
        core.isNone = options.selfHosting ∧ ∀ tier ∈ core, tier.Resolves w'.store Catalog.core := by
  unfold enterCore coreAdditions
  split
  · next hself =>
    rw [List.append_nil]
    exact ensures_pure ⟨h, .refl _, hself.symm, by simp⟩
  · next hself =>
    refine .bind ((askTier_ensures h Catalog.core).mono fun core w' ⟨h', hk, hcore⟩ => ?_)
    exact ensures_pure ⟨h', hk, by simpa using hself, by simpa using hcore⟩

theorem require_ensures {p : Primitives} {tag : Tag} {ty : TypeId} {Q : TypeId → World → Prop}
    (hty : p.type? tag = some ty) (h : Q ty w) : (require p tag).Ensures w Q :=
  ensures_ofWorld (by simp [Primitives.require, hty]) h

theorem addLooseMethod_ensures (h : Underway base log done w.store)
    (hmc : base.HasSymbol pseudoIds.method) {g : Signature} (hg : ∀ ty ∈ g.types, base.HasType ty)
    (owner : Name) (modifiers : Modifiers) (name : Name) :
    (addLooseMethod ClassPath.resolver owner modifiers name g pseudoIds.method).Ensures w
      fun id w' => Underway base (log ++ Change.asking [owner] ++ [.method]) done w'.store ∧
        w.store.Keeps w'.store ∧
        ∃ o, w'.store.class? owner = some o ∧ w'.store.Declares id .method name o := by
  refine .bind ((ask_ensures h owner).mono fun id w₁ ⟨h₁, hk₁, hc⟩ => ensures_add ?_)
  have hg₁ : ∀ ty ∈ g.types, w₁.store.HasType ty := fun ty hty => h₁.keeps.hasType (hg ty hty)
  have ha := h₁.sound.addMethod (h₁.sound.registered.hasSymbol hc) (h₁.keeps.hasSymbol hmc) hg₁
    modifiers name
  have hgrown : w₁.store.Grows [.method]
      (w₁.store.addMethod modifiers name g id pseudoIds.method).2 :=
    Grows.refl.method (d := pseudoIds.method) ⟨by simp, by simp⟩ hg₁
  refine ⟨h₁.of_advances ha hgrown (h₁.pending.extend _ _), hk₁.trans ha.keeps, id, ha.keeps.cls hc,
    w₁.store.nextType, ?_⟩
  simp [addMethod_eq, outline?, symbol?_extend, Symbol.outline, SymbolBody.outline]

/-! ## Standing in -/

theorem standForInterfaces_ensures {ctx : StandinContext} {flats : List Name}
    (h : Underway base log done w.store) (hobj : base.HasType ctx.object) :
    (standForInterfaces ClassPath.resolver ctx flats).Ensures w fun _ w' =>
      Underway base (log ++ Change.asking flats) done w'.store ∧ w.store.Keeps w'.store := by
  induction flats generalizing w log with
  | nil => exact ensures_pure ⟨(List.append_nil log).symm ▸ h, .refl _⟩
  | cons flat flats ih =>
    refine .bind ((askType_ensures h flat).mono fun ty w₁ ⟨h₁, hk₁, id, hid, _, hty⟩ => ?_)
    obtain ⟨hd, info, hinfo⟩ := h₁.sound.declaring? hid
    have hstand : ctx.standForInterface ty w₁.store =
        .ok (id, w₁.store.fallBack id (.emptyInterface ctx.object)) := by
      rw [hty] at hd
      simp [StandinContext.standForInterface, declaringClass, hd, classInfo, hinfo, Except.map]
    have h₂ := h₁.fallBack (.emptyInterface ctx.object) (h₁.keeps.hasType hobj) id
    refine .bind (ensures_attempt (by rw [hstand]; rfl) ((ih h₂).mono fun _ w₃ ⟨h₃, hk₃⟩ => ?_))
    rw [List.append_assoc] at h₃
    exact ⟨h₃, (hk₁.trans (keeps_fallBack ..)).trans hk₃⟩

theorem standForBoxes_ensures {ctx : StandinContext} {tags : List Tag}
    (h : Underway base log done w.store) (hobj : base.HasType ctx.object)
    (hmc : ctx.methodClass = pseudoIds.method) (hp : ctx.primitives.Sound base)
    (htags : ∀ tag ∈ tags, (ctx.primitives.type? tag).isSome ∧ (ctx.primitives.box? tag).isSome) :
    (standForBoxes ClassPath.resolver ctx tags).Ensures w fun _ w' =>
      Underway base (log ++ Change.asking (tags.filterMap ctx.primitives.box?)) done w'.store ∧
        w.store.Keeps w'.store := by
  induction tags generalizing w log with
  | nil => exact ensures_pure ⟨(List.append_nil log).symm ▸ h, .refl _⟩
  | cons tag tags ih =>
    obtain ⟨htype, hbox⟩ := htags tag (List.mem_cons_self ..)
    obtain ⟨ty, hty⟩ := Option.isSome_iff_exists.1 htype
    obtain ⟨boxed, hboxed⟩ := Option.isSome_iff_exists.1 hbox
    obtain ⟨f, d, hf, htag, hd, -⟩ := hp.mono h.keeps tag ty hty
    obtain ⟨t, ht, rfl⟩ := Option.map_eq_some_iff.1 hf
    refine .bind (require_ensures hty ?_)
    -- a primitive of the table has a wrapper, so its stand-in is always put in place
    rcases StandinContext.standForBox_cases h.sound (h.keeps.hasType hobj) hmc ty with
      ⟨e, hr⟩ | ⟨id, w₁, boxed', plan, hboxed', hasked, hl, hr⟩
    · simp [StandinContext.standForBox, ht, Ty.tag, htag, hboxed, hd, hty] at hr
    · obtain rfl : boxed = boxed' := by simpa [ht, Ty.tag, htag, hboxed] using hboxed'
      have h₁ : Underway base (log ++ Change.asking [boxed]) done w₁.store := h.asked hasked
      have h₂ := h₁.fallBack (.box plan) hl id
      refine .bind (ensures_ofWorld hr ((ih h₂ fun tag' htag' =>
        htags tag' (List.mem_cons_of_mem _ htag')).mono ?_))
      rintro _ w₃ ⟨h₃, hk₃⟩
      rw [List.filterMap_cons_some hboxed]
      rw [List.append_assoc] at h₃
      exact ⟨h₃, (hasked.entering.keeps.trans (keeps_fallBack ..)).trans hk₃⟩

/-! ## Markers -/

/-- A lazy class becomes a complete annotation. -/
theorem enterMarker_ensures (h : Underway base log done w.store) {flat : Name} {id : SymbolId}
    (hc : w.store.class? flat = some id) (hd : flat ∉ done) {supertype : TypeId}
    (hsup : base.HasType supertype) :
    (enterMarker id supertype).Ensures w fun _ w' =>
      Underway base log (flat :: done) w'.store ∧ w.store.Keeps w'.store := by
  obtain ⟨p, hphase⟩ := h.sound.phased.phase hc not_false
  obtain rfl : p = .lazy := hphase.completer?.1 (h.pending flat id hc hd)
  have ha := h.sound.marked hphase (h.keeps.hasType hsup)
  have hpending := h.pending.marked h.sound.registered hc supertype
  have hmarked := hphase.marked supertype
  obtain ⟨sym, info, hs, hb, -⟩ := hphase
  have hinfo := classInfo?_eq_some.2 ⟨_, symbol?_unread hs hb, rfl⟩
  refine .bind (ensures_change (.bind (ensures_change (ensures_attempt (updateClass_eq hinfo _) ?_))))
  have hcls : (w.store.classInfo? id).isSome := by simp [classInfo?_eq_some.2 ⟨sym, hs, hb⟩]
  have h' := h.of_settled ha (grows_marked hcls supertype) hpending fun n hn => by
    rcases List.mem_cons.1 hn with rfl | hn
    · exact .inr ⟨id, hc, hmarked⟩
    · exact .inl hn
  rw [List.append_nil] at h'
  exact ⟨h', ha.keeps⟩

/-! ## Arrays -/

theorem enterArrayMembers_ensures (h : Underway base log done w.store)
    (hmc : base.HasSymbol pseudoIds.method) {platform : Tier} {int : TypeId}
    (hint : base.HasType int) (hobj : base.HasType (platform.typeOf "object"))
    (hclone : base.HasType (platform.typeOf "cloneable"))
    (hser : base.HasType (platform.typeOf "serializable")) :
    (enterArrayMembers pseudoIds.array pseudoIds.method int platform).Ensures w fun m w' =>
      Underway base (log ++ [.field] ++ [.method]) done w'.store ∧ w.store.Keeps w'.store ∧
        w'.store.Declares m.length .var WellKnown.length.text pseudoIds.array ∧
        w'.store.Declares m.clone .method WellKnown.clone.text pseudoIds.array := by
  obtain ⟨s₁, hs₁, h₁, hk₁⟩ := h.updateArray (fun info =>
    { info with
      supertype := some (platform.typeOf "object")
      interfaces := some [platform.typeOf "cloneable", platform.typeOf "serializable"] })
    (by simp) (fun _ hinfo =>
      { hinfo with
        supertype := fun _ he => Option.some.inj he ▸ h.keeps.hasType hobj
        interfaces := by simpa using ⟨h.keeps.hasType hclone, h.keeps.hasType hser⟩ })
    fun _ hdone => { hdone with }
  refine .bind (ensures_attempt hs₁ ?_)
  obtain ⟨s₂, hs₂, h₂, hk₂⟩ := h₁.updateArray (fun info =>
    { info with members := some (.members pseudoIds.array) }) (by simp) (fun _ hinfo =>
      { hinfo with members := fun _ he => Option.some.inj he ▸ Scope.linked_members _ _ })
    fun _ hdone => { hdone with members := ⟨_, rfl, rfl⟩ }
  refine .bind (ensures_attempt hs₂ ?_)
  -- the length is added and entered
  have hadd := h₂.sound.addVariable h₂.array.hasSymbol (h₂.keeps.hasType hint)
    (.ofFlags [.isPublic, .isFinal]) WellKnown.length.text
  have h₃ := h₂.of_advances hadd (Grows.refl.field ⟨by simp, by simp⟩) (h₂.pending.addSymbol _)
  have hlength : (s₂.addVariable (.ofFlags [.isPublic, .isFinal]) WellKnown.length.text int
      pseudoIds.array).2.Declares s₂.nextSymbol .var WellKnown.length.text pseudoIds.array :=
    ⟨int, by simp [addVariable, outline?, symbol?_addSymbol, Symbol.outline, SymbolBody.outline]⟩
  obtain ⟨s₄, hs₄, h₄, hk₄⟩ := h₃.enterArrayMember hlength.hasSymbol
  refine .bind (ensures_add (.bind (ensures_attempt hs₄ ?_)))
  -- and so is the clone method
  have hg : ∀ ty ∈ (Signature.of [] (platform.typeOf "object")).types, s₄.HasType ty := by
    simpa [Signature.types, Signature.of] using h₄.keeps.hasType hobj
  have hadd₄ := h₄.sound.addMethod h₄.array.hasSymbol (h₄.keeps.hasSymbol hmc) hg
    (.single .isPublic) WellKnown.clone.text
  have hgrown : s₄.Grows [.method] (s₄.addMethod (.single .isPublic) WellKnown.clone.text
      (.of [] (platform.typeOf "object")) pseudoIds.array pseudoIds.method).2 :=
    Grows.refl.method (d := pseudoIds.method) ⟨by simp, by simp⟩ hg
  have h₅ := h₄.of_advances hadd₄ hgrown (h₄.pending.extend _ _)
  have hmethod : (s₄.addMethod (.single .isPublic) WellKnown.clone.text
      (.of [] (platform.typeOf "object")) pseudoIds.array pseudoIds.method).2.Declares s₄.nextSymbol
        .method WellKnown.clone.text pseudoIds.array :=
    ⟨s₄.nextType, by simp [addMethod_eq, outline?, symbol?_extend, Symbol.outline, SymbolBody.outline]⟩
  obtain ⟨s₆, hs₆, h₆, hk₆⟩ := h₅.enterArrayMember hmethod.hasSymbol
  refine .bind (ensures_add (.bind (ensures_attempt hs₆ (ensures_pure ?_))))
  have hk₃ := hk₁.trans (hk₂.trans hadd.keeps)
  have hk₅ := hadd₄.keeps.trans hk₆
  exact ⟨h₆, hk₃.trans (hk₄.trans hk₅), (hk₄.trans hk₅).declares hlength, hk₆.declares hmethod⟩

end Steps

/-! ## The table -/

namespace Table

/-- The types that the operators of a table work on. -/
def operandTypes (t : Table) : OperandTypes :=
  ⟨t.primitives, t.platform.typeOf "object", t.platform.typeOf "string"⟩

/-- Whatever the table holds is in the store. -/
structure Held (t : Table) (s : Store) : Prop where
  symbols : ∀ h ∈ t.symbols, s.HasSymbol h.2
  types : ∀ h ∈ t.types, s.HasType h.2
  platform : t.platform.Resolves s Catalog.platform
  core : ∀ r ∈ t.core.getD [], s.HasType r.ty
  runtime : ∀ r ∈ t.runtime, s.HasType r.ty
  primitives : t.primitives.Sound s

theorem Held.mono {t : Table} {s s' : Store} (h : t.Held s) (hk : s.Keeps s') : t.Held s' where
  symbols x hx := hk.hasSymbol (h.symbols x hx)
  types ty hty := hk.hasType (h.types ty hty)
  platform := h.platform.mono hk
  core r hr := hk.hasType (h.core r hr)
  runtime r hr := hk.hasType (h.runtime r hr)
  primitives := h.primitives.mono hk

/-- The operators among the members of the predefined class are the built-in rows, in order. -/
def HoldsRows (t : Table) (s : Store) : Prop :=
  ∀ name, (t.operators s name).map (·.entry) =
    (Builtin.rows.map t.operandTypes.entry).filter fun e => decide (e.name = name)

/-- What holds of a table and of the store it was built in. -/
structure Built (t : Table) (s : Store) : Prop where
  sound : s.Sound t.rootPackage t.methodClass
  held : t.Held s
  complete : t.primitives.Complete
  pending : s.Pending ("" :: Catalog.markers)
  predefined : s.class? "" = some t.predefClass
  predefCompleted : s.InPhase t.predefClass .completed
  operators : t.HoldsRows s

/-- What building a table adds to the ground, in order. -/
def additions (options : Options) : List Change :=
  Change.asking (Catalog.flatNames Catalog.platform) ++
    Change.asking [options.release.iterableName] ++
    Change.asking ["java.lang.Enum"] ++ [.method] ++
    Change.asking ["java.lang.AutoCloseable"] ++ [.method] ++
    coreAdditions options ++
    Change.asking (Catalog.flatNames Catalog.runtime) ++
    Change.asking Catalog.optionalInterfaces ++
    Change.asking ["java.lang.Double", "java.lang.Float"] ++
    Change.asking Catalog.markers ++
    [.field, .method] ++
    Builtin.rows.map fun _ => .method

/-- The symbols that stand before any name is resolved. -/
def grounds (t : Table) : List SymbolId :=
  [t.rootPackage, t.unnamedPackage, t.noSymbol, t.errorSymbol, t.unknownSymbol, t.arrayClass,
    t.boundClass, t.methodClass, t.predefClass]

/-- The members that a table keeps hold of. -/
def members (t : Table) : List SymbolId :=
  [t.enumFinalize, t.autoCloseableClose, t.arrayLength, t.arrayClone, t.nullCheck]

/-- What the handles of a table lead to, apart from the core library. -/
structure Handles (release : Release) (t : Table) (s : Store) : Prop where
  target : t.options.release = release
  primitives : t.primitives = primitiveIds
  grounds : t.grounds = (List.range 5 ++ [15, 16, 17, 18]).map SymbolId.mk
  errorType : t.errorType = ⟨4⟩
  unknownType : t.unknownType = ⟨1⟩
  platform : t.platform.Resolves s Catalog.platform
  iterable : s.ClassType release.iterableName t.iterable
  runtime : t.runtime.Resolves s Catalog.runtime
  proprietary : s.ClassType "sun.Proprietary+Annotation" t.proprietary
  profile : s.ClassType "jdk.Profile+Annotation" t.profile
  enumFinalize : ∃ o, s.class? "java.lang.Enum" = some o ∧
    s.Declares t.enumFinalize .method WellKnown.finalize.text o
  autoCloseableClose : ∃ o, s.class? "java.lang.AutoCloseable" = some o ∧
    s.Declares t.autoCloseableClose .method WellKnown.close.text o
  arrayLength : s.Declares t.arrayLength .var WellKnown.length.text t.arrayClass
  arrayClone : s.Declares t.arrayClone .method WellKnown.clone.text t.arrayClass
  nullCheck : s.Declares t.nullCheck (.operator Builtin.nullCheck.code) Builtin.nullCheck.name
    t.predefClass

theorem Handles.arrayClass {release : Release} {t : Table} {s : Store} (h : t.Handles release s) :
    t.arrayClass = pseudoIds.array :=
  Option.some.inj (congrArg (·[5]?) h.grounds)

theorem Handles.predefClass {release : Release} {t : Table} {s : Store} (h : t.Handles release s) :
    t.predefClass = pseudoIds.predef :=
  Option.some.inj (congrArg List.getLast? h.grounds)

theorem Handles.mono {release : Release} {t : Table} {s s' : Store} (h : t.Handles release s)
    (hk : s.Keeps s') : t.Handles release s' :=
  { h with
    platform := h.platform.mono hk
    iterable := hk.classType h.iterable
    runtime := h.runtime.mono hk
    proprietary := hk.classType h.proprietary
    profile := hk.classType h.profile
    enumFinalize := h.enumFinalize.imp fun _ ho => ⟨hk.cls ho.1, hk.declares ho.2⟩
    autoCloseableClose := h.autoCloseableClose.imp fun _ ho => ⟨hk.cls ho.1, hk.declares ho.2⟩
    arrayLength := hk.declares h.arrayLength
    arrayClone := hk.declares h.arrayClone
    nullCheck := hk.declares h.nullCheck }

theorem Handles.hasSymbol_members {release : Release} {t : Table} {s : Store}
    (h : t.Handles release s) : ∀ x ∈ t.members, s.HasSymbol x := by
  obtain ⟨_, -, hfinalize⟩ := h.enumFinalize
  obtain ⟨_, -, hclose⟩ := h.autoCloseableClose
  simp [members, hfinalize.hasSymbol, hclose.hasSymbol, h.arrayLength.hasSymbol,
    h.arrayClone.hasSymbol, h.nullCheck.hasSymbol]

/-- The table holds what its options ask for. `display` is what the unnamed package is shown as. -/
structure Furnished (options : Options) (display : String) (t : Table) (s : Store) : Prop extends
    Handles options.release t s where
  sound : s.Sound t.rootPackage t.methodClass
  grown : ∃ l, (pseudoStore display).Grows l s ∧ l.Perm (additions options)
  deferred : t.core.isNone = options.selfHosting
  core : ∀ core ∈ t.core, core.Resolves s Catalog.core
  pending : s.Pending ("" :: Catalog.markers)
  settled : ∀ flat ∈ "" :: Catalog.markers, ∃ id, s.class? flat = some id ∧ s.InPhase id .completed
  operators : t.HoldsRows s
  /-- The members of the predefined class are entered in the order of the rows. -/
  names : s.memberNames? t.predefClass =
    ((groundStore display).memberNames? t.predefClass).map fun names =>
      (Builtin.rows.map (·.name)).foldl enterName names

/-- Until the operators are entered, which comes last, the predefined class is what it was on the
ground. -/
def OperatorsLast (display : String) (t : Table) (s : Store) : Prop :=
  ∃ s₀, (groundStore display).Keeps s₀ ∧
    s₀.symbol? t.predefClass = (groundStore display).symbol? t.predefClass ∧
    s = s₀.withOperators t.predefClass t.methodClass (Builtin.rows.map t.operandTypes.entry)

end Table

theorem Primitives.Sound.hasType {p : Primitives} {s : Store} (h : p.Sound s) {tag : Tag}
    {ty : TypeId} (hty : p.type? tag = some ty) : s.HasType ty := by
  obtain ⟨_, _, -, -, hd, -⟩ := h tag ty hty
  exact hasType_of_declaring? hd

theorem Table.Furnished.held {options : Options} {display : String} {t : Table} {s : Store}
    (h : t.Furnished options display s) : t.Held s := by
  obtain ⟨l, hgrown, -⟩ := h.grown
  have hground := grounded_primitiveIds display
  have hlinked := h.sound.linked
  refine ⟨fun x hx => ?_, ?_, h.platform, ?_, ?_, ?_⟩
  · have hsymbols : t.symbols.map (·.2) = t.grounds ++ t.members := rfl
    have hmem : x.2 ∈ t.grounds ++ t.members := hsymbols ▸ List.mem_map_of_mem hx
    rcases List.mem_append.1 hmem with hx | hx
    · rw [h.grounds] at hx
      exact hgrown.keeps.hasSymbol (hground.hasSymbol x.2 hx)
    · exact h.hasSymbol_members x.2 hx
  · have hold := fun ty hty => hgrown.keeps.hasType (hground.hasType ty hty)
    simp [Table.types, h.errorType, h.unknownType, hold, hlinked.hasType h.iterable,
      hlinked.hasType h.proprietary, hlinked.hasType h.profile]
  · intro r hr
    cases hcore : t.core with
    | none => simp [hcore] at hr
    | some tier =>
      rw [hcore, Option.getD_some] at hr
      exact hlinked.hasType ((h.core tier hcore).types r hr)
  · exact fun r hr => hlinked.hasType (h.runtime.types r hr)
  · exact h.primitives ▸ hground.primitives.mono hgrown.keeps

theorem Table.Furnished.built {options : Options} {display : String} {t : Table} {s : Store}
    (h : t.Furnished options display s) : t.Built s := by
  obtain ⟨l, hgrown, -⟩ := h.grown
  have hpredefined : s.class? "" = some t.predefClass := by
    rw [h.predefClass]
    exact hgrown.keeps.cls (((grounded_primitiveIds display).registered "" _).2 ⟨rfl, rfl⟩)
  obtain ⟨id, hid, hphase⟩ := h.settled "" (List.mem_cons_self ..)
  obtain rfl := Option.some.inj (hid.symm.trans hpredefined)
  exact ⟨h.sound, h.held, h.primitives ▸ complete_primitiveIds, h.pending, hpredefined, hphase,
    h.operators⟩

/-- The ground with the platform classes resolved is where the table is built on. -/
theorem Grounded.underway {display : String} {s s' : Store} {p : Primitives}
    (h : Grounded display s p) (he : s.Entering s') : Underway s' [] [""] s' := by
  have ha := h.sound.entering he
  have hpredef := ha.spares.inPhase h.predef (by simp)
  refine ⟨ha.sound, .refl, ?_, ?_, ha.spares.inPhase h.array (by simp), hpredef, rfl⟩
  · refine Pending.entering (fun flat id hc hd => ?_) h.sound.registered he
    simp [((h.registered flat id).1 hc).1] at hd
  · exact fun flat hflat => List.mem_singleton.1 hflat ▸
      ⟨_, he.keeps.cls ((h.registered "" _).2 ⟨rfl, rfl⟩), hpredef⟩

/-- The operators find their operand types. -/
theorem Underway.operandTypes {base s : Store} {log : List Change} {done : List Name}
    {p : Primitives} {object string : TypeId}
    (h : Underway base log done s) (hp : p.Sound base) (hcomplete : p.Complete)
    (hobj : base.HasType object) (hstr : base.HasType string) :
    (OperandTypes.mk p object string).Sound s where
  registered k tag hk := by
    rw [hcomplete.types]
    cases k <;> cases hk <;> decide
  hasType k := by
    have hprim : ∀ tag ∈ Tag.primitives, s.HasType ((p.type? tag).getD .absent) := by
      intro tag htag
      obtain ⟨ty, hty⟩ := Option.isSome_iff_exists.1 ((hcomplete.types tag).2 htag)
      simpa [hty] using (hp.mono h.keeps).hasType hty
    cases k with
    | object => exact h.keeps.hasType hobj
    | string => exact h.keeps.hasType hstr
    | _ => exact hprim _ (by decide)

/-- As long as the predefined class is what it was on the ground, it has no operators. -/
theorem Grounded.operatorsNamed {display : String} {s s' : Store} {p : Primitives}
    (h : Grounded display s p) (hk : s.Keeps s')
    (hsame : s'.symbol? pseudoIds.predef = s.symbol? pseudoIds.predef) (n : Name) :
    s'.operatorsNamed pseudoIds.predef n = [] := by
  have hmembers : s'.lookupMember pseudoIds.predef n = s.lookupMember pseudoIds.predef n := by
    simp only [lookupMember, members?, hsame]
  rw [Store.operatorsNamed, hmembers, List.filterMap_eq_nil_iff]
  exact fun x hx => operatorSignature?_of_class (hk.isSome_classInfo? (h.members n x hx))

/-- A table is furnished whatever the class path holds and whatever was seen before, and its operators
are entered last. -/
theorem Table.building_steps (options : Options) (messages : Messages) (w : World) :
    (Table.building options messages ClassPath.resolver).Ensures w fun t w' =>
      t.Furnished options (messages unnamedPackageKey) w'.store ∧
        t.OperatorsLast (messages unnamedPackageKey) w'.store := by
  refine .bind (ensures_total (ground_ensures messages rfl fun w₁ h₁ hstore₁ => ?_))
  have hcomplete := complete_primitiveIds
  -- from the platform on, names are resolved
  obtain ⟨hasked, hplat⟩ := ClassPath.askTier_asked Catalog.platform h₁.sound.registered
  refine .bind (ensures_total ?_)
  have h₂ := h₁.underway hasked.entering
  have hadv := h₁.sound.entering hasked.entering
  have hp := h₁.primitives.mono hadv.keeps
  generalize ClassPath.resolver.askTier Catalog.platform w₁ = r at *
  obtain ⟨platform, w₂⟩ := r
  have hlisted : ∀ label e, Catalog.platform.find? (fun e => decide (e.label = label)) = some e →
      w₂.store.HasType (platform.typeOf label) := fun label e he =>
    hadv.sound.linked.hasType (hplat.typeOf he)
  have hobj := hlisted "object" _ rfl
  obtain ⟨void, hvoid⟩ := Option.isSome_iff_exists.1 ((hcomplete.types .void).2 (by decide))
  obtain ⟨int, hint⟩ := Option.isSome_iff_exists.1 ((hcomplete.types .int).2 (by decide))
  have hmc := hadv.keeps.hasSymbol h₁.method
  refine .bind ((askType_ensures h₂ options.release.iterableName).mono ?_)
  rintro iterable w₃ ⟨h₃, -, hiterable⟩
  refine .bind (require_ensures hvoid ?_)
  refine .bind ((addLooseMethod_ensures h₃ hmc ?_ _ _ _).mono ?_)
  · simpa [Signature.types, Signature.of] using hp.hasType hvoid
  rintro enumFinalize w₄ ⟨h₄, hk₄, enum, henum, hfinalize⟩
  refine .bind ((addLooseMethod_ensures h₄ hmc ?_ _ _ _).mono ?_)
  · simpa [Signature.types] using ⟨hp.hasType hvoid, hlisted "exception" _ rfl⟩
  rintro autoCloseableClose w₅ ⟨h₅, hk₅, closeable, hcloseable, hclose⟩
  refine .bind ((enterCore_ensures h₅ options).mono ?_)
  rintro core w₆ ⟨h₆, hk₆, hdeferred, hcore⟩
  refine .bind ((askTier_ensures h₆ Catalog.runtime).mono ?_)
  rintro runtime w₇ ⟨h₇, hk₇, hruntime⟩
  refine .bind ((standForInterfaces_ensures h₇ hobj).mono ?_)
  rintro _ w₈ ⟨h₈, hk₈⟩
  have hboxed : ∀ tag ∈ optionalBoxes,
      (primitiveIds.type? tag).isSome ∧ (primitiveIds.box? tag).isSome := by decide
  have hboxes : optionalBoxes.filterMap primitiveIds.box? =
      ["java.lang.Double", "java.lang.Float"] := by decide
  refine .bind ((standForBoxes_ensures h₈ hobj rfl hp hboxed).mono ?_)
  rintro _ w₉ ⟨h₉, hk₉⟩
  rw [hboxes] at h₉
  refine .bind ((ask_ensures h₉ _).mono ?_)
  rintro proprietary w₁₀ ⟨h₁₀, hk₁₀, hproprietary⟩
  refine .bind (ensures_total ?_)
  refine .bind ((ask_ensures h₁₀ _).mono ?_)
  rintro profile w₁₁ ⟨h₁₁, hk₁₁, hprofile⟩
  refine .bind (ensures_total ?_)
  have hannotation := hlisted "annotation" _ rfl
  refine .bind ((enterMarker_ensures h₁₁ (hk₁₁.cls hproprietary) (by decide) hannotation).mono ?_)
  rintro _ w₁₂ ⟨h₁₂, hk₁₂⟩
  refine .bind ((enterMarker_ensures h₁₂ (hk₁₂.cls hprofile) (by decide) hannotation).mono ?_)
  rintro _ w₁₃ ⟨h₁₃, hk₁₃⟩
  refine .bind (require_ensures hint ?_)
  refine .bind ((enterArrayMembers_ensures h₁₃ hmc (hp.hasType hint) hobj
    (hlisted "cloneable" _ rfl) (hlisted "serializable" _ rfl)).mono ?_)
  rintro members w₁₄ ⟨h₁₄, hk₁₄, hlength, hclone⟩
  -- the operators come last
  have htypes := h₁₄.operandTypes hp hcomplete hobj (hlisted "string" _ rfl)
  obtain ⟨nullCheck, w₁₅, hrun, hnull, h₁₅⟩ := World.enterBuiltins_entered h₁₄.sound h₁₄.predef
    (h₁₄.keeps.hasSymbol hmc) htypes
  refine .bind (ensures_ofWorld hrun (ensures_pure ?_))
  -- what a step made known is kept by those that follow
  have k₁₄ := h₁₅.keeps
  have k₁₁ := hk₁₂.trans (hk₁₃.trans (hk₁₄.trans k₁₄))
  have k₁₀ := hk₁₁.trans k₁₁
  have k₇ := hk₈.trans (hk₉.trans (hk₁₀.trans k₁₀))
  have k₆ := hk₇.trans k₇
  have k₅ := hk₆.trans k₆
  have k₄ := hk₅.trans k₅
  have k₃ := hk₄.trans k₄
  obtain ⟨hpending, hsettled⟩ := h₁₄.operators h₁₅
  have hdone : ∀ flat, flat ∈ ["jdk.Profile+Annotation", "sun.Proprietary+Annotation", ""] ↔
      flat ∈ "" :: Catalog.markers := by
    intro flat
    simp only [Catalog.markers, List.mem_cons, List.not_mem_nil, or_false]
    tauto
  have hsame : w₁₄.store.symbol? pseudoIds.predef = w₁.store.symbol? pseudoIds.predef := by
    rw [h₁₄.untouched, hadv.spares.symbol? h₁.predef (by simp)]
  have hkeeps := hadv.keeps.trans h₁₄.keeps
  refine ⟨?_, w₁₄.store, hstore₁ ▸ hkeeps, hstore₁ ▸ hsame, h₁₅.eq⟩
  exact {
    target := rfl
    primitives := rfl
    grounds := rfl
    errorType := rfl
    unknownType := rfl
    platform := hplat.mono (h₁₄.keeps.trans k₁₄)
    iterable := k₃.classType hiterable
    runtime := hruntime.mono k₇
    proprietary := k₁₀.classType (h₁₀.sound.registered.classType hproprietary)
    profile := k₁₁.classType (h₁₁.sound.registered.classType hprofile)
    enumFinalize := ⟨enum, k₄.cls henum, k₄.declares hfinalize⟩
    autoCloseableClose := ⟨closeable, k₅.cls hcloseable, k₅.declares hclose⟩
    arrayLength := k₁₄.declares hlength
    arrayClone := k₁₄.declares hclone
    nullCheck := hnull
    sound := h₁₅.sound
    grown := by
      have hgrown := (h₁.grown.asking hasked).trans (h₁₄.grown.trans h₁₅.grown)
      have hmarkers : Change.asking Catalog.markers =
          Change.asking ["sun.Proprietary+Annotation"] ++ Change.asking ["jdk.Profile+Annotation"] := rfl
      have hmembers : [Change.field, Change.method] = [Change.field] ++ [Change.method] := rfl
      refine ⟨_, ?_, .refl _⟩
      simpa only [Table.additions, hmarkers, hmembers, List.append_assoc, List.nil_append,
        List.map_map, Function.comp_def] using hgrown
    deferred := hdeferred
    core := fun tier htier => (hcore tier htier).mono k₆
    pending := fun flat id hc hd => hpending flat id hc (mt (hdone flat).1 hd)
    settled := fun flat hflat => hsettled flat ((hdone flat).2 hflat)
    operators := fun name => by
      rw [Table.operators, h₁₅.operators, h₁.operatorsNamed hkeeps hsame]
      rfl
    names := by
      rw [h₁₅.names, ← hstore₁]
      simp only [Store.memberNames?, members?, hsame, List.map_map]
      rfl }

theorem Table.building_furnished (options : Options) (messages : Messages) (w : World) :
    (Table.building options messages ClassPath.resolver).Ensures w fun t w' =>
      t.Furnished options (messages unnamedPackageKey) w'.store :=
  (Table.building_steps options messages w).mono fun _ _ h => h.1

/-- A table is built whatever the class path holds and whatever was seen before. -/
theorem Table.building_ensures (options : Options) (messages : Messages) (w : World) :
    (Table.building options messages ClassPath.resolver).Ensures w fun t w' => t.Built w'.store :=
  (Table.building_furnished options messages w).mono fun _ _ h => h.built

theorem Table.build_furnished {options : Options} {messages : Messages} {w w' : World} {t : Table}
    (h : Table.build options messages ClassPath.resolver w = (.ok t, w')) :
    t.Furnished options (messages unnamedPackageKey) w'.store := by
  obtain ⟨t', v, hrun, hfurnished⟩ := Table.building_furnished options messages w
  obtain ⟨ht, rfl⟩ := Prod.mk.inj (h.symm.trans hrun)
  obtain rfl := Except.ok.inj ht
  exact hfurnished

end SymbolTable
