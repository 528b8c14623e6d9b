/-
The registry of a session.

Whatever is done in a session makes its store grow from the ground of its
table, and growth keeps names filed. Main statement: in every session the
maps, the names, the owners and the package scopes agree, whatever texts
were asked for.
-/
import SymbolTable.Proofs.Session

namespace SymbolTable

open Build Store

/-! ## The ground -/

namespace Store

variable {s : Store}

theorem symbol?_withPrimitives_old {id : SymbolId} (h : s.HasSymbol id) (root : SymbolId)
    (rows : List (Tag × Name × Option String)) :
    (s.withPrimitives root rows).symbol? id = s.symbol? id := by
  induction rows generalizing s with
  | nil => rfl
  | cons row rows ih =>
    exact (ih ((s.keeps_withPrimitive root _ _).hasSymbol h)).trans (symbol?_extend_old h)

theorem HasSymbol.withPseudo {id : SymbolId} (h : s.HasSymbol id) (name : Name)
    (scope : SymbolId → Scope) (owner : SymbolId) : (s.withPseudo name scope owner).HasSymbol id :=
  (keeps_extend ..).hasSymbol h

theorem package?_withPrimitives (s : Store) (root : SymbolId)
    (rows : List (Tag × Name × Option String)) (n : Name) :
    (s.withPrimitives root rows).package? n = s.package? n := by
  induction rows generalizing s with
  | nil => rfl
  | cons row rows ih => exact ih _

end Store

/-- The sentinels are left alone by what follows them. -/
theorem symbol?_pseudoStore_sentinel (display : String) {id : SymbolId}
    (h : (sentinelStore display (some ⟨4⟩)).HasSymbol id) :
    (pseudoStore display).symbol? id = (sentinelStore display (some ⟨4⟩)).symbol? id := by
  have h₀ : (primitiveStore display).HasSymbol id := (keeps_withPrimitives ..).hasSymbol h
  have hold : (primitiveStore display).symbol? id = (sentinelStore display (some ⟨4⟩)).symbol? id :=
    symbol?_withPrimitives_old h ..
  rw [← hold, pseudoStore]
  generalize primitiveStore display = s₀ at h₀
  have h₁ := h₀.withPseudo WellKnown.array.text .members ⟨2⟩
  have h₂ := h₁.withPseudo WellKnown.bound.text .erroneous ⟨2⟩
  have h₃ := h₂.withPseudo WellKnown.method.text .erroneous ⟨2⟩
  exact (symbol?_extend_old h₃).trans ((symbol?_extend_old h₂).trans ((symbol?_extend_old h₁).trans
    (symbol?_extend_old h₀)))

theorem package?_pseudoStore (display : String) (full : Name) :
    (pseudoStore display).package? full = if full = "" then some ⟨0⟩ else none := by
  have hold : (pseudoStore display).package? full = (primitiveStore display).package? full := by
    rw [pseudoStore]
    generalize primitiveStore display = s₀
    rfl
  rw [hold, primitiveStore, package?_withPrimitives, Store.package?, sentinelStore,
    OrderedMap.get?_insert]
  rfl

theorem symbol?_pseudoStore_predef (display : String) : ∃ ty,
    (pseudoStore display).symbol? pseudoIds.predef = some
      { modifiers := pseudoModifiers, name := "", owner := some ⟨0⟩, ty, sentinel := none,
        body := .cls { ClassInfo.named "" "" with members := some (.members pseudoIds.predef) } } := by
  have hnext := nextSymbol_primitiveStore display
  rw [pseudoStore]
  generalize primitiveStore display = s₀ at hnext ⊢
  set s₃ := ((s₀.withPseudo WellKnown.array.text .members ⟨2⟩).withPseudo WellKnown.bound.text
    .erroneous ⟨2⟩).withPseudo WellKnown.method.text .erroneous ⟨2⟩ with hs₃
  have hnext₃ : s₃.nextSymbol = pseudoIds.predef := by
    simp only [hs₃, nextSymbol_withPseudo, hnext]
    rfl
  have hself := s₃.symbol?_withPseudo_self WellKnown.empty.text .members ⟨0⟩
  rw [hnext₃] at hself
  exact ⟨s₃.nextType, hself⟩

/-- The predefined class is filed under the empty name, in the root package, which lists nothing. -/
theorem filed_pseudoStore (display : String) : (pseudoStore display).Filed pseudoIds.predef := by
  have hground := grounded_primitiveIds display
  have hpackage := package?_pseudoStore display
  have hclass := hground.registered
  have hroot : (pseudoStore display).symbol? ⟨0⟩ = (sentinelStore display (some ⟨4⟩)).symbol? ⟨0⟩ :=
    symbol?_pseudoStore_sentinel display (by simp [HasSymbol, sentinelStore])
  refine ⟨hground.sound.registered, (hclass "" _).2 ⟨rfl, rfl⟩, fun {r id} hr => ?_,
    fun {full id} hp => ?_⟩
  · cases r with
    | cls flat =>
      obtain ⟨rfl, rfl⟩ := (hclass flat id).1 hr
      obtain ⟨ty, hself⟩ := symbol?_pseudoStore_predef display
      have hparent : (Request.cls "").parent? = some (.package "") := rfl
      refine ⟨_, hself, rfl, rfl, rfl, ?_, fun p hp => ?_⟩
      · simp [hparent, Store.lookup?, hpackage]
      · obtain rfl := Option.some.inj (hparent.symm.trans hp)
        simp [Store.lookup?, hpackage]
    | package full =>
      rw [Store.lookup?, hpackage] at hr
      split at hr
      · next hfull =>
        obtain rfl := Option.some.inj hr
        subst hfull
        exact ⟨_, hroot, rfl, rfl, rfl, rfl, fun p hp => by cases hp⟩
      · cases hr
  · rw [hpackage] at hp
    split at hp
    · next hfull =>
      obtain rfl := Option.some.inj hp
      subst hfull
      have hmembers : (pseudoStore display).members? ⟨0⟩ = some (.members ⟨0⟩) :=
        congrArg (Option.bind · Symbol.members?) hroot
      have hnone : ∀ n, (pseudoStore display).lookupMember ⟨0⟩ n = [] := by
        intro n
        rw [lookupMember, hmembers]
        rfl
      refine ⟨⟨_, hmembers, rfl⟩, fun n => by rw [hnone]; exact .nil, fun n x => ?_⟩
      rw [hnone]
      refine iff_of_false List.not_mem_nil ?_
      rintro ⟨hx, flat, hc, -⟩
      exact hx ((hclass flat x).1 hc).2
    · cases hp

/-! ## Names that are not asked for -/

/-- The bytes of a text. -/
def Name.bytes (n : Name) : List UInt8 := n.toByteArray.data.toList

theorem Name.bytes_isPrefix {m n : Name} (h : m.toList <+: n.toList) : m.bytes <+: n.bytes := by
  obtain ⟨rest, hrest⟩ := h
  obtain rfl : m ++ String.ofList rest = n := by
    apply String.toList_inj.1
    rw [String.toList_append, String.toList_ofList, hrest]
  refine ⟨(String.ofList rest).toByteArray.data.toList, ?_⟩
  rw [bytes, bytes, String.toByteArray_append, ByteArray.data_append, Array.toList_append]

/-- The names that a table may ask for, the core library apart. -/
def Catalog.besidesCore : List Name :=
  flatNames platform ++ Release.all.map (·.iterableName) ++
    ["java.lang.Enum", "java.lang.AutoCloseable"] ++ flatNames runtime ++ optionalInterfaces ++
    ["java.lang.Double", "java.lang.Float"] ++ markers

/-- None of these names is `m` or goes on from it. -/
def Catalog.apart (m : Name) : Bool :=
  decide (m ≠ "") && besidesCore.all fun n => !m.bytes.isPrefixOf n.bytes

theorem Catalog.not_isPrefix_of_apart {m : Name} (h : apart m = true) :
    m ≠ "" ∧ ∀ n ∈ besidesCore, ¬m.toList <+: n.toList := by
  simp only [apart, List.all_eq_true, Bool.and_eq_true, decide_eq_true_eq, Bool.not_eq_true',
    ← Bool.not_eq_true, List.isPrefixOf_iff_prefix] at h
  exact ⟨h.1, fun n hn hprefix => h.2 n hn (Name.bytes_isPrefix hprefix)⟩

theorem Catalog.core_apart : ∀ m ∈ flatNames core, apart m = true := by
  have hall : (flatNames core).all apart = true := by decide +kernel
  exact List.all_eq_true.1 hall

theorem Table.mem_additions {options : Options} (hself : options.selfHosting = true) {q : Request}
    (h : Change.request q ∈ additions options) : ∃ n ∈ Catalog.besidesCore, q = .cls n := by
  have hall : ∀ c ∈ additions options, ∀ q, c = .request q → ∃ n ∈ Catalog.besidesCore, q = .cls n := by
    have hasks : ∀ flats : List Name, (∀ n, n ∈ flats → n ∈ Catalog.besidesCore) →
        ∀ c ∈ Change.asking flats, ∀ q, c = .request q → ∃ n ∈ Catalog.besidesCore, q = .cls n := by
      intro flats hsub c hc q hq
      obtain ⟨n, hn, rfl⟩ := List.mem_map.1 hc
      exact ⟨n, hsub n hn, (Change.request.inj hq).symm⟩
    have hiterable : options.release.iterableName ∈ Release.all.map (·.iterableName) :=
      List.mem_map_of_mem (Release.mem_all _)
    simp only [additions, coreAdditions, hself, if_true, List.forall_mem_append, and_assoc]
    refine ⟨hasks _ ?_, hasks _ ?_, hasks _ ?_, ?_, hasks _ ?_, ?_, ?_, hasks _ ?_, hasks _ ?_,
      hasks _ ?_, hasks _ ?_, ?_, ?_⟩
    all_goals simp +contextual [Catalog.besidesCore, hiterable]
  exact hall _ h q rfl

/-- A table that leaves the core library out registers only what it asks for besides. -/
theorem Table.Furnished.class?_of_apart {options : Options} {display : String} {t : Table} {s : Store}
    (h : t.Furnished options display s) (hself : options.selfHosting = true) {flat : Name}
    (hflat : Catalog.apart flat = true) : s.class? flat = none := by
  obtain ⟨hne, hapart⟩ := Catalog.not_isPrefix_of_apart hflat
  obtain ⟨l, hgrown, hperm⟩ := h.grown
  rw [← Option.not_isSome_iff_eq_none]
  intro hsome
  rcases (hgrown.isSome_lookup?_iff (r := .cls flat) (filed_pseudoStore display)).1 hsome with
    hground | ⟨q, hq, hinside⟩
  · obtain ⟨id, hid⟩ := Option.isSome_iff_exists.1 hground
    exact hne (((grounded_primitiveIds display).registered flat id).1 hid).1
  · obtain ⟨n, hn, rfl⟩ := Table.mem_additions hself (hperm.mem_iff.1 hq)
    exact hapart n hn hinside.isPrefix

theorem Table.Furnished.class?_core {options : Options} {display : String} {t : Table} {s : Store}
    (h : t.Furnished options display s) (hself : options.selfHosting = true) {flat : Name}
    (hflat : flat ∈ Catalog.flatNames Catalog.core) : s.class? flat = none :=
  h.class?_of_apart hself (Catalog.core_apart flat hflat)

/-! ## Sessions -/

namespace Session

theorem Sound.step_grows {st : Session} (h : st.Sound) (op : Op) :
    ∃ l, st.store.Grows l (st.step op).store := by
  rcases h.step_cases op with ⟨id, rfl⟩ | ⟨s, he, hstep⟩
  · cases hc : st.world.store.completer? id with
    | none =>
      refine ⟨[], ?_⟩
      rw [Session.store, Session.step, World.complete_of_done hc]
      exact .refl
    | some c =>
      obtain ⟨flat, -, hr⟩ := h.store.phased.pending hc not_false
      exact ⟨_, World.complete_grows h.store hc hr⟩
  · obtain ⟨l, hl⟩ := he.grows
    rcases hstep with hs | ⟨id, f, -, -, hs⟩
    · exact ⟨l, hs ▸ hl⟩
    · exact ⟨_, hs ▸ hl.trans (s.grows_fallBack id f)⟩

theorem Reachable.grown {st : Session} (h : st.Reachable) : st.table.predefClass = pseudoIds.predef ∧
    ∃ display l, (pseudoStore display).Grows l st.store := by
  induction h with
  | built hbuild =>
    have hfurnished := Table.build_furnished hbuild
    obtain ⟨l, hgrown, -⟩ := hfurnished.grown
    exact ⟨hfurnished.predefClass, _, l, hgrown⟩
  | @step st hreach op ih =>
    obtain ⟨hpredef, display, l, hl⟩ := ih
    obtain ⟨l', hl'⟩ := hreach.sound.step_grows op
    refine ⟨?_, display, _, hl.trans hl'⟩
    rw [(hreach.sound.extends_step op).table]
    exact hpredef

theorem Reachable.filed {st : Session} (h : st.Reachable) : st.store.Filed st.table.predefClass := by
  obtain ⟨hpredef, display, l, hl⟩ := h.grown
  exact hpredef ▸ hl.filed (filed_pseudoStore display)

end Session

/-! ## Agreement -/

/-- The names and the owner of a class are those that its flat name gives. -/
structure ClassAgrees (s : Store) (flat : Name) (sym : Symbol) : Prop where
  named : ∃ info, sym.body = .cls info ∧ info.flatName = flat
  /-- A nested class is below the class that its name gives before the last `$`. -/
  nested : '$' ∈ flat.toList → ∃ outer inner owner ownerSym, flat.Cut '$' outer inner ∧
    s.class? outer = some owner ∧ s.symbol? owner = some ownerSym ∧ sym.owner = some owner ∧
    sym.name = inner ∧ sym.qualifiedName = ownerSym.qualifiedName ++ "." ++ inner
  /-- Any other class is below its package. -/
  top : '$' ∉ flat.toList → ∃ full simple owner, flat.InPackage full simple ∧
    s.package? full = some owner ∧ sym.owner = some owner ∧ sym.name = simple ∧
    sym.qualifiedName = flat

/-- The names and the owner of a package are those that its full name gives. -/
structure PackageAgrees (s : Store) (full : Name) (sym : Symbol) : Prop where
  named : ∃ info, sym.body = .package info ∧ info.fullName = full
  parent : full ≠ "" → ∃ outer simple owner, full.InPackage outer simple ∧
    s.package? outer = some owner ∧ sym.owner = some owner ∧ sym.name = simple

/-- A scope holds the classes at the top level of a package, and nothing else. -/
structure ScopeAgrees (s : Store) (predef : SymbolId) (full : Name) (scope : Scope) : Prop where
  once : ∀ flat simple x, s.class? flat = some x → x ≠ predef → '$' ∉ flat.toList →
    flat.InPackage full simple → (scope.lookup simple).count x = 1
  only : ∀ n xs x, (n, xs) ∈ scope.toList → x ∈ xs → ∃ flat, s.class? flat = some x ∧ x ≠ predef ∧
    '$' ∉ flat.toList ∧ flat.InPackage full n

namespace Store

variable {s : Store} {predef : SymbolId}

theorem Filed.classAgrees (h : s.Filed predef) {flat : Name} {id : SymbolId}
    (hc : s.class? flat = some id) : ∃ sym, s.symbol? id = some sym ∧ ClassAgrees s flat sym := by
  obtain ⟨sym, hs, hfiled⟩ := h.entry (r := .cls flat) hc
  refine ⟨sym, hs, ?_, fun hnested => ?_, fun htop => ?_⟩
  · obtain ⟨sym', info, hs', hb, hflat, -⟩ := h.registered.cls hc
    obtain rfl := Option.some.inj (hs.symm.trans hs')
    exact ⟨info, hb, hflat⟩
  · obtain ⟨outer, inner, hcut⟩ := Name.exists_cut hnested
    have hinside : (flat.enclosing '$').head? = some outer := by rw [hcut.enclosing]; rfl
    have hparent := Request.parent?_nested hinside
    obtain ⟨owner, howner⟩ := Option.isSome_iff_exists.1 (hfiled.parent _ hparent)
    obtain ⟨ownerSym, hownerSym, hfiled'⟩ := h.entry howner
    refine ⟨outer, inner, owner, ownerSym, hcut, howner, hownerSym, ?_, ?_, ?_⟩
    · rw [hfiled.owner, hparent, Option.bind_some, howner]
    · rw [hfiled.name, Request.simpleName_nested hinside, hcut.lastPart]
    · rw [hfiled.qualified, hfiled'.qualified]
      exact hcut.dotted
  · have hplain := Name.enclosing_of_notMem htop
    have hparent := Request.parent?_top hplain
    obtain ⟨owner, howner⟩ := Option.isSome_iff_exists.1 (hfiled.parent _ hparent)
    refine ⟨flat.packagePart, flat.lastPart '.', owner, Name.inPackage_iff.2 ⟨rfl, rfl⟩, howner,
      ?_, ?_, ?_⟩
    · rw [hfiled.owner, hparent, Option.bind_some, howner]
    · rw [hfiled.name, Request.simpleName_top hplain]
    · rw [hfiled.qualified]
      exact Name.dotted_of_notMem htop

theorem Filed.packageAgrees (h : s.Filed predef) {full : Name} {id : SymbolId}
    (hp : s.package? full = some id) : ∃ sym, s.symbol? id = some sym ∧ PackageAgrees s full sym := by
  obtain ⟨sym, hs, hfiled⟩ := h.entry (r := .package full) hp
  refine ⟨sym, hs, ?_, fun hne => ?_⟩
  · obtain ⟨sym', info, hs', hb, hfull⟩ := h.registered.package hp
    obtain rfl := Option.some.inj (hs.symm.trans hs')
    exact ⟨info, hb, hfull⟩
  · have hparent := Request.parent?_package hne
    obtain ⟨owner, howner⟩ := Option.isSome_iff_exists.1 (hfiled.parent _ hparent)
    refine ⟨full.packagePart, full.lastPart '.', owner, Name.inPackage_iff.2 ⟨rfl, rfl⟩, howner,
      ?_, hfiled.name⟩
    rw [hfiled.owner, hparent, Option.bind_some, howner]

/-- A class is at the top level of a package if no `$` is in its flat name. -/
theorem topClass_iff {full n : Name} {x : SymbolId} : s.TopClass predef full n x ↔
    ∃ flat, s.class? flat = some x ∧ x ≠ predef ∧ '$' ∉ flat.toList ∧ flat.InPackage full n := by
  have key : ∀ flat : Name, ((Request.cls flat).parent? = some (.package full) ∧
      (Request.cls flat).simpleName = n) ↔ '$' ∉ flat.toList ∧ flat.InPackage full n := by
    intro flat
    by_cases hflat : '$' ∈ flat.toList
    · obtain ⟨outer, inner, hcut⟩ := Name.exists_cut hflat
      have hinside : (flat.enclosing '$').head? = some outer := by rw [hcut.enclosing]; rfl
      simp [Request.parent?_nested hinside, hflat]
    · have hplain := Name.enclosing_of_notMem hflat
      simp [Request.parent?_top hplain, Request.simpleName_top hplain, hflat, Name.inPackage_iff]
  simp only [TopClass, key]
  constructor
  · rintro ⟨hx, flat, hc, hflat⟩
    exact ⟨flat, hc, hx, hflat⟩
  · rintro ⟨flat, hc, hx, hflat⟩
    exact ⟨hx, flat, hc, hflat⟩

theorem Filed.scopeAgrees (h : s.Filed predef) {full : Name} {id : SymbolId}
    (hp : s.package? full = some id) :
    ∃ scope, s.members? id = some scope ∧ ScopeAgrees s predef full scope := by
  have hlists := h.lists hp
  obtain ⟨scope, hscope, herr⟩ := hlists.scope
  have hlookup : ∀ n, s.lookupMember id n = scope.lookup n := fun n => by rw [lookupMember, hscope]
  refine ⟨scope, hscope, fun flat simple x hc hx htop hin => ?_, fun n xs x hxs hx => ?_⟩
  · rw [← hlookup]
    exact List.count_eq_one_of_mem (hlists.nodup simple)
      ((hlists.members simple x).2 (topClass_iff.2 ⟨flat, hc, hx, htop, hin⟩))
  · have hentry : scope.lookup n = xs := by
      simp [Scope.lookup, herr, OrderedMap.get?_of_mem_entries hxs]
    exact topClass_iff.1 ((hlists.members n x).1 (by rwa [hlookup, hentry]))

end Store

namespace Session

/-- Names, maps, owners and package scopes agree. -/
structure NamesAgree (st : Session) : Prop where
  classes : ∀ flat id, st.store.class? flat = some id →
    ∃ sym, st.store.symbol? id = some sym ∧ ClassAgrees st.store flat sym
  packages : ∀ full id, st.store.package? full = some id →
    ∃ sym, st.store.symbol? id = some sym ∧ PackageAgrees st.store full sym
  scopes : ∀ full id, st.store.package? full = some id →
    ∃ scope, st.store.members? id = some scope ∧
      ScopeAgrees st.store st.table.predefClass full scope

/-- In every session they do, whatever texts were asked for. -/
theorem Reachable.namesAgree {st : Session} (h : st.Reachable) : st.NamesAgree where
  classes _ _ hc := h.filed.classAgrees hc
  packages _ _ hp := h.filed.packageAgrees hp
  scopes _ _ hp := h.filed.scopeAgrees hp

/-- Texts that are all separators, and texts that lead to the predefined class. -/
theorem namesAgree_degenerate : ∃ (t : Table) (w : World),
    Table.build .default Messages.english ClassPath.resolver .empty = (.ok t, w) ∧
      ((Session.mk t w).run [.resolveClass "$X", .resolveClass "A$", .resolveClass "$",
        .resolveClass "a.b$c.d", .resolveClass ".A", .resolvePackage "a..b", .resolvePackage ".",
        .resolveClass ""]).NamesAgree := by
  obtain ⟨t, w, hbuild, -⟩ := Table.building_ensures .default Messages.english .empty
  exact ⟨t, w, hbuild, ((Reachable.built hbuild).run _).namesAgree⟩

end Session

end SymbolTable
