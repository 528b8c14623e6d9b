/-
Tables that leave the core library for later.

A table that is built while the core library is compiled from source asks
for its classes when it is told to. They are then asked for in another
order than they would have been, so identities differ, but nothing that can
be told without identities does. Main statement: such a table, once the core
library is loaded, corresponds to one that was built with it. From then on,
loading it again changes nothing.
-/
import SymbolTable.CommandLine.Listing
import SymbolTable.Proofs.OperatorTable
import SymbolTable.Proofs.Rendering

namespace SymbolTable

open Build Store

/-! ## Asking again -/

namespace Store

variable {s s' : Store} {root mc predef : SymbolId} {flat : Name} {ty ty' : TypeId}

theorem Entering.eq_of_known (he : s.Entering s') (hr : s.Registered)
    (hknown : ∀ r, (s'.lookup? r).isSome → (s.lookup? r).isSome) : s' = s := by
  cases he with
  | refl => rfl
  | @tail s₁ _ hpath hstep =>
    -- the last name to be entered would have been missing until then
    obtain ⟨r, _, hnew, hlookup, -⟩ := hstep.entry (hr.entering hpath)
    have hfound : (s'.lookup? r).isSome := by rw [hlookup, if_pos rfl, Option.isSome_some]
    have hold := (Entering.keeps hpath).isSome_lookup? (hknown r hfound)
    rw [hnew] at hold
    cases hold

theorem Filed.asked_eq (h : s.Filed predef) {rs : List Request} (ha : s.Asked rs s')
    (hrs : ∀ r ∈ rs, (s.lookup? r).isSome) : s' = s := by
  refine ha.entering.eq_of_known h.registered fun r hr => ?_
  rcases ha.only r hr with hold | ⟨q, hq, hinside⟩
  · exact hold
  · exact h.enclosing (hrs q hq) hinside

theorem ClassType.unique (h : s.ClassType flat ty) (h' : s.ClassType flat ty') : ty = ty' := by
  obtain ⟨id, hc, -, rfl⟩ := h
  obtain ⟨id', hc', -, rfl⟩ := h'
  rw [Option.some.inj (hc.symm.trans hc')]

end Store

namespace Tier.Resolves

variable {s : Store} {entries : List CatalogEntry} {t t' : Tier}

theorem registered (h : t.Resolves s entries) :
    ∀ r ∈ (Catalog.flatNames entries).map Request.cls, (s.lookup? r).isSome := by
  intro r hr
  rw [← h.entries, Catalog.flatNames, List.map_map, List.map_map] at hr
  obtain ⟨c, hc, rfl⟩ := List.mem_map.1 hr
  obtain ⟨id, hid, -⟩ := h.types c hc
  exact Option.isSome_of_eq_some hid

theorem unique (h : t.Resolves s entries) (h' : t'.Resolves s entries) : t = t' := by
  obtain ⟨hentries, htypes⟩ := h
  obtain ⟨hentries', htypes'⟩ := h'
  induction t generalizing t' entries with
  | nil =>
    subst hentries
    exact (List.map_eq_nil_iff.1 hentries').symm
  | cons c t ih =>
    obtain _ | ⟨c', t'⟩ := t'
    · subst hentries
      cases hentries'
    · obtain ⟨hhead, htail⟩ := List.cons.inj (hentries.trans hentries'.symm)
      obtain rfl : c = c' := by
        have hty := htypes c (List.mem_cons_self ..)
        have hty' := htypes' c' (List.mem_cons_self ..)
        obtain ⟨entry, ty⟩ := c
        obtain ⟨entry', ty'⟩ := c'
        obtain rfl : entry = entry' := hhead
        exact congrArg (ResolvedClass.mk entry) (hty.unique hty')
      have hrest : t = t' := ih rfl (fun x hx => htypes x (List.mem_cons_of_mem _ hx)) htail.symm
        fun x hx => htypes' x (List.mem_cons_of_mem _ hx)
      rw [hrest]

end Tier.Resolves

namespace Session

/-- Loading the core library changes neither the table nor the store. -/
def CoreSettled (st : Session) : Prop :=
  (st.step .loadCore).table = st.table ∧ (st.step .loadCore).store = st.store

theorem Reachable.core_resolves {st : Session} (h : st.Reachable) :
    ∀ core ∈ st.table.core, core.Resolves st.store Catalog.core := by
  induction h with
  | built hbuild => exact (Table.build_furnished hbuild).core
  | @step st hreach op ih =>
    by_cases hop : op = .loadCore
    · subst hop
      obtain ⟨core, w, hstep, -, hcore⟩ := hreach.sound.loadCore
      rw [hstep]
      intro core' hmem
      exact Option.some.inj hmem ▸ hcore
    · intro core hmem
      rw [table_step st hop] at hmem
      exact (ih core hmem).mono (hreach.sound.advances op).keeps

/-- Once the core library is loaded, it is settled. -/
theorem Reachable.coreSettled {st : Session} (h : st.Reachable) (hcore : st.table.core.isSome) :
    st.CoreSettled := by
  obtain ⟨core, hcore⟩ := Option.isSome_iff_exists.1 hcore
  have hold := h.core_resolves core hcore
  obtain ⟨core', w, hstep, hasked, hnew⟩ := h.sound.loadCore
  have hsame : w.store = st.store := h.filed.asked_eq hasked hold.registered
  have hcore' : core' = core := hnew.unique (hsame ▸ hold)
  rw [CoreSettled, hstep, hcore', ← hcore]
  exact ⟨rfl, hsame⟩

theorem isSome_core_loadCore (st : Session) : (st.step .loadCore).table.core.isSome := by
  cases hask : ClassPath.resolver.askTier Catalog.core st.world with
  | mk core w => rw [step_loadCore hask, Option.isSome_some]

theorem isSome_core_step {st : Session} (op : Op) (h : st.table.core.isSome) :
    (st.step op).table.core.isSome := by
  by_cases hop : op = .loadCore
  · exact hop ▸ st.isSome_core_loadCore
  · rwa [table_step st hop]

theorem isSome_core_run {st : Session} (ops : List Op) (h : st.table.core.isSome) :
    (st.run ops).table.core.isSome := by
  induction ops generalizing st with
  | nil => exact h
  | cons op ops ih => exact ih (isSome_core_step op h)

end Session

/-! ## Operators -/

namespace Store

variable {s : Store} {predef : SymbolId}

def entryLine (s : Store) (e : OperatorEntry) : String :=
  Text.flushRight 6 e.name ++ "  " ++ Text.flushLeft 40 (s.signatureText (.of e.params e.result)) ++
    " " ++ e.code.text

theorem Layered.operatorLine (h : s.Layered) {x : SymbolId} {o : OperatorSignature}
    (ho : s.operatorSignature? x = some o) : CommandLine.operatorLine s o = s.entryLine o.entry := by
  obtain ⟨sym, hs, ho⟩ := Option.bind_eq_some_iff.1 ho
  obtain ⟨code, -, ho⟩ := Option.bind_eq_some_iff.1 ho
  obtain ⟨g, hg, ho⟩ := Option.bind_eq_some_iff.1 ho
  obtain rfl := Option.some.inj ho
  obtain ⟨⟨form, d⟩, ht, hform⟩ := Option.map_eq_some_iff.1 (signature?_eq_some.1 hg)
  obtain rfl : form = .method g := hform
  have htext : s.typeText (s.typeOf x) = s.signatureText g := by
    rw [typeOf_of_symbol? hs, h.typeText_method ht]
  rw [CommandLine.operatorLine, htext]
  rfl

/-- A listing goes through the names of the members in order, and through the overloads of each. -/
theorem InPhase.allOperators (h : s.InPhase predef .completed) {names : List Name}
    (hn : s.memberNames? predef = some names) :
    s.allOperators predef = names.flatMap (s.operatorsNamed predef) := by
  obtain ⟨sc, hm, herr⟩ := h.members?
  obtain rfl : sc.groups.keys = names := by simpa [Store.memberNames?, hm] using hn
  simp only [Store.allOperators, hm, Scope.entered, List.filterMap_flatMap, List.filterMap_map,
    OrderedMap.keys, List.flatMap_map]
  refine List.flatMap_congr fun p hp => ?_
  have hlookup : s.lookupMember predef p.1 = p.2 := by
    simp [Store.lookupMember, hm, Scope.lookup, herr, OrderedMap.get?_of_mem_entries hp]
  rw [operatorsNamed, hlookup]
  rfl

end Store

/-! ## What a table shows -/

def Tier.keys (s : Store) (t : Tier) : List (CatalogEntry × Option Name) :=
  t.map fun c => (c.entry, s.keyBehind? c.ty)

theorem Tier.Resolves.keys {s : Store} {root mc : SymbolId} {entries : List CatalogEntry} {t : Tier}
    (h : t.Resolves s entries) (hs : s.Sound root mc) :
    t.keys s = entries.map fun e => (e, some e.flat) := by
  rw [← h.entries, List.map_map]
  exact List.map_congr_left fun c hc => Prod.ext rfl (hs.keyBehind? (h.types c hc))

namespace Table

/-- The cards of the symbols that a table keeps hold of. -/
def symbolCards (t : Table) (s : Store) : List (String × Option Card) :=
  t.symbols.map fun h => (h.1, s.card? h.2)

/-- The keys behind the types that a table keeps hold of outside its tiers. -/
def typeKeys (t : Table) (s : Store) : List (String × Option Name) :=
  t.types.map fun h => (h.1, s.keyBehind? h.2)

variable {release : Release} {options : Options} {display : String} {t : Table} {s : Store}

/-- What a table is built with does not depend on when the core library is asked for. -/
theorem additions_perm (release : Release) : List.Perm
    (additions ⟨true, release⟩ ++ Change.asking (Catalog.flatNames Catalog.core))
    (additions ⟨false, release⟩) := by
  rw [List.perm_iff_count]
  intro c
  simp only [additions, coreAdditions, if_true, Bool.false_eq_true, if_false, List.count_append,
    List.count_nil]
  omega

theorem Handles.setCore (h : t.Handles release s) (core : Option Tier) :
    Handles release { t with core } s := { h with }

/-- Loading the core library furnishes a table as if it had been built with it. -/
theorem Furnished.loadCore {w : World} (h : t.Furnished ⟨true, release⟩ display w.store) :
    ((Session.mk t w).step .loadCore).table.Furnished ⟨false, release⟩ display
      ((Session.mk t w).step .loadCore).store := by
  have hpredef := h.built.predefCompleted
  have hstart : (Session.mk t w).Sound := ⟨h.sound, h.held⟩
  have hext := hstart.extends_step .loadCore
  have hoperators := hext.operators hstart hpredef
  obtain ⟨core, w', hstep, hasked, hcore⟩ := hstart.loadCore
  rw [hstep] at hext hoperators ⊢
  obtain ⟨-, hsound, hadvances⟩ := hext
  have hspares := hadvances.spares
  refine { (h.toHandles.mono hadvances.keeps).setCore (some core) with
    sound := hsound.store
    grown := ?_
    deferred := rfl
    core := fun tier htier => Option.some.inj htier ▸ hcore
    pending := h.pending.entering h.sound.registered hasked.entering
    settled := fun flat hflat => ?_
    operators := fun name => (congrArg (List.map _) (hoperators name)).trans (h.operators name)
    names := ?_ }
  · obtain ⟨l, hgrown, hperm⟩ := h.grown
    exact ⟨_, hgrown.asking hasked, (hperm.append_right _).trans (additions_perm release)⟩
  · obtain ⟨id, hc, hphase⟩ := h.settled flat hflat
    exact ⟨id, hadvances.keeps.cls hc, hspares.inPhase hphase (by simp)⟩
  · have hsame : w'.store.symbol? t.predefClass = w.store.symbol? t.predefClass :=
      hspares.symbol? hpredef (by simp)
    have hnames : w'.store.memberNames? t.predefClass = w.store.memberNames? t.predefClass := by
      simp only [Store.memberNames?, members?, hsame]
    exact hnames.trans h.names

def memberCards (display : String) : List Card :=
  let array := (pseudoStore display).keyOf? pseudoIds.array
  let predef := (pseudoStore display).keyOf? pseudoIds.predef
  [⟨.method, "finalize", "finalize", "finalize", some "java.lang.Enum"⟩,
   ⟨.method, "close", "close", "close", some "java.lang.AutoCloseable"⟩,
   ⟨.var, "length", "length", "length", array⟩,
   ⟨.method, "clone", "clone", "clone", array⟩,
   ⟨.operator, Builtin.nullCheckName, Builtin.nullCheckName, Builtin.nullCheckName, predef⟩]

theorem symbolCards_eq (t : Table) (s : Store) : t.symbolCards s =
    (t.symbols.map (·.1)).zip (t.grounds.map s.card? ++ t.members.map s.card?) := rfl

namespace Furnished

theorem groundCards (h : t.Furnished options display s) :
    t.grounds.map s.card? = t.grounds.map (pseudoStore display).card? := by
  obtain ⟨l, hgrown, -⟩ := h.grown
  have hground := grounded_primitiveIds display
  refine List.map_congr_left fun x hx => hgrown.keeps.card? hground.sound.linked ?_
  rw [h.grounds] at hx
  exact hground.hasSymbol x hx

theorem memberCards (h : t.Furnished options display s) :
    t.members.map s.card? = (Table.memberCards display).map some := by
  obtain ⟨l, hgrown, -⟩ := h.grown
  have hground := grounded_primitiveIds display
  have harray : s.keyOf? t.arrayClass = (pseudoStore display).keyOf? pseudoIds.array := by
    rw [h.arrayClass, hgrown.keeps.keyOf? hground.array.hasSymbol]
  have hpredef : s.keyOf? t.predefClass = (pseudoStore display).keyOf? pseudoIds.predef := by
    rw [h.predefClass, hgrown.keeps.keyOf? hground.predef.hasSymbol]
  obtain ⟨enum, henum, hfinalize⟩ := h.enumFinalize
  obtain ⟨closeable, hcloseable, hclose⟩ := h.autoCloseableClose
  have henum' := h.sound.registered.keyOf? (r := .cls "java.lang.Enum") henum
  have hcloseable' := h.sound.registered.keyOf? (r := .cls "java.lang.AutoCloseable") hcloseable
  have hcards : t.members.map s.card? = [s.card? t.enumFinalize, s.card? t.autoCloseableClose,
      s.card? t.arrayLength, s.card? t.arrayClone, s.card? t.nullCheck] := rfl
  rw [hcards, hfinalize.card? (by simp) (by simp), hclose.card? (by simp) (by simp),
    h.arrayLength.card? (by simp) (by simp), h.arrayClone.card? (by simp) (by simp),
    h.nullCheck.card? (by simp) (by simp), henum', hcloseable', harray, hpredef]
  rfl

theorem keyBehind? (h : t.Furnished options display s) {ty : TypeId}
    (hty : (pseudoStore display).HasType ty) :
    s.keyBehind? ty = (pseudoStore display).keyBehind? ty := by
  obtain ⟨l, hgrown, -⟩ := h.grown
  exact hgrown.keyBehind? (grounded_primitiveIds display).sound.linked (layered_pseudoStore display) hty

theorem typeKeys (h : t.Furnished options display s) : t.typeKeys s =
    [("err_type", (pseudoStore display).keyBehind? ⟨4⟩),
     ("unknown_type", (pseudoStore display).keyBehind? ⟨1⟩),
     ("iterable", some options.release.iterableName),
     ("proprietary", some "sun.Proprietary+Annotation"),
     ("jdk_profile", some "jdk.Profile+Annotation")] := by
  have hground := fun ty hty => h.keyBehind? ((grounded_primitiveIds display).hasType ty hty)
  simp only [Table.typeKeys, Table.types, List.map_cons, List.map_nil, h.errorType, h.unknownType,
    hground ⟨4⟩ (by simp), hground ⟨1⟩ (by simp), h.sound.keyBehind? h.iterable,
    h.sound.keyBehind? h.proprietary, h.sound.keyBehind? h.profile]

theorem primitiveKeys (h : t.Furnished options display s) (tag : Tag) :
    (t.typeForTag? tag).map s.keyBehind? =
      (primitiveIds.type? tag).map (pseudoStore display).keyBehind? := by
  rw [typeForTag?, h.primitives]
  refine Option.map_congr fun ty hty => h.keyBehind? ?_
  exact (grounded_primitiveIds display).primitives.hasType hty

theorem coreKeys (h : t.Furnished options display s) : t.core.map (·.keys s) =
    if options.selfHosting then none else some (Catalog.core.map fun e => (e, some e.flat)) := by
  rw [← h.deferred]
  cases hcore : t.core with
  | none => rfl
  | some core => exact congrArg some ((h.core core hcore).keys h.sound)

theorem filed (h : t.Furnished options display s) : s.Filed t.predefClass := by
  obtain ⟨l, hgrown, -⟩ := h.grown
  rw [h.predefClass]
  exact hgrown.filed (filed_pseudoStore display)

theorem layered (h : t.Furnished options display s) : s.Layered := by
  obtain ⟨l, hgrown, -⟩ := h.grown
  exact hgrown.layered (layered_pseudoStore display)

/-- The classes that were dealt with as the table was built are complete, and all others lazy. -/
theorem inPhase_iff (h : t.Furnished options display s) (flat : Name) (p : Phase) :
    (∃ id, s.class? flat = some id ∧ s.InPhase id p) ↔
      (s.class? flat).isSome ∧ p = if flat ∈ "" :: Catalog.markers then .completed else .lazy := by
  have hphase : ∀ {id}, s.class? flat = some id →
      s.InPhase id (if flat ∈ "" :: Catalog.markers then .completed else .lazy) := by
    intro id hc
    split
    · next hdone =>
      obtain ⟨id', hc', hcompleted⟩ := h.settled flat hdone
      exact Option.some.inj (hc'.symm.trans hc) ▸ hcompleted
    · next hlazy =>
      obtain ⟨q, hq⟩ := h.sound.phased.phase hc not_false
      exact hq.completer?.1 (h.pending flat id hc hlazy) ▸ hq
  constructor
  · intro hp
    obtain ⟨id, hc, hp⟩ := hp
    exact ⟨Option.isSome_of_eq_some hc, hp.unique (hphase hc)⟩
  · intro hp
    obtain ⟨hsome, rfl⟩ := hp
    obtain ⟨id, hc⟩ := Option.isSome_iff_exists.1 hsome
    exact ⟨id, hc, hphase hc⟩

end Furnished

def kindText (display : String) : OperandKind → String
  | .object => (Request.cls "java.lang.Object").sourceName
  | .string => (Request.cls "java.lang.String").sourceName
  | k => (pseudoStore display).typeText ((k.tag?.bind primitiveIds.type?).getD .absent)

/-- An operator of a listing, given by its row. -/
def rowLine (display : String) (row : OperatorRow) : String :=
  Text.flushRight 6 row.name ++ "  " ++
    Text.flushLeft 40 ("(" ++ ",".intercalate (row.params.map (kindText display)) ++ ")" ++
      kindText display row.result) ++ " " ++ row.code.text

namespace Furnished

theorem typeText_operand (h : t.Furnished options display s) (k : OperandKind) :
    s.typeText (t.operandTypes.typeOf k) = kindText display k := by
  obtain ⟨l, hgrown, -⟩ := h.grown
  have hground := grounded_primitiveIds display
  have hoperands := h.held.operandsApart h.sound h.built.complete
  have hprim : ∀ tag, k.tag? = some tag → s.typeText (t.operandTypes.typeOf k) =
      (pseudoStore display).typeText ((k.tag?.bind primitiveIds.type?).getD .absent) := by
    intro tag hk
    have hty := hoperands.primitive k tag hk
    rw [h.primitives] at hty
    rw [hk, Option.bind_some, hty, Option.getD_some]
    exact hgrown.typeText hground.sound.linked (layered_pseudoStore display)
      (hground.primitives.hasType hty)
  cases k with
  | object => exact h.filed.typeText h.sound hoperands.object
  | string => exact h.filed.typeText h.sound hoperands.string
  | _ => exact hprim _ rfl

theorem entryLine (h : t.Furnished options display s) (row : OperatorRow) :
    s.entryLine (t.operandTypes.entry row) = rowLine display row := by
  have hparams : (row.params.map t.operandTypes.typeOf).map s.typeText =
      row.params.map (kindText display) := by
    rw [List.map_map]
    exact List.map_congr_left fun k _ => h.typeText_operand k
  have htext : s.signatureText (.of (row.params.map t.operandTypes.typeOf)
      (t.operandTypes.typeOf row.result)) =
      "(" ++ ",".intercalate (row.params.map (kindText display)) ++ ")" ++
        kindText display row.result := by
    rw [← hparams, ← h.typeText_operand]
    rfl
  rw [Store.entryLine, rowLine, ← htext]
  rfl

/-- The overloads of a name are listed in the order of the rows. -/
theorem operatorLines (h : t.Furnished options display s) (name : Name) :
    (t.operators s name).map (CommandLine.operatorLine s) =
      (Builtin.rows.filter fun row => decide (row.name = name)).map (rowLine display) := by
  have hlines : (t.operators s name).map (CommandLine.operatorLine s) =
      ((t.operators s name).map (·.entry)).map s.entryLine := by
    rw [List.map_map]
    refine List.map_congr_left fun o ho => ?_
    obtain ⟨x, -, hx⟩ := List.mem_filterMap.1 ho
    exact h.layered.operatorLine hx
  rw [hlines, h.operators name, List.filter_map, List.map_map]
  exact List.map_congr_left fun row _ => h.entryLine row

/-- All of them are listed in the order in which their names were first entered. -/
theorem allOperatorLines (h : t.Furnished options display s) :
    (s.allOperators t.predefClass).map (CommandLine.operatorLine s) =
      ((s.memberNames? t.predefClass).getD []).flatMap fun name =>
        (Builtin.rows.filter fun row => decide (row.name = name)).map (rowLine display) := by
  have hpredef := h.built.predefCompleted
  obtain ⟨scope, hscope, -⟩ := hpredef.members?
  have hnames : s.memberNames? t.predefClass = some scope.groups.keys := by
    rw [memberNames?, hscope, Option.map_some]
  rw [hpredef.allOperators hnames, List.map_flatMap, hnames, Option.getD_some]
  exact List.flatMap_congr fun name _ => h.operatorLines name

end Furnished

end Table

/-! ## Correspondence -/

namespace Session

/-- Nothing that can be told without identities sets two sessions apart. -/
structure Corresponds (st st' : Session) : Prop where
  extent : st.store.SameExtent st'.store
  /-- What is registered under a name goes by the same names, and so does its owner. -/
  cards : ∀ r, (st.store.lookup? r).bind st.store.card? = (st'.store.lookup? r).bind st'.store.card?
  /-- Classes of one name are in the same phase. -/
  phases : ∀ flat p, (∃ id, st.store.class? flat = some id ∧ st.store.InPhase id p) ↔
    ∃ id, st'.store.class? flat = some id ∧ st'.store.InPhase id p
  symbols : st.table.symbolCards st.store = st'.table.symbolCards st'.store
  types : st.table.typeKeys st.store = st'.table.typeKeys st'.store
  primitives : ∀ tag, (st.table.typeForTag? tag).map st.store.keyBehind? =
    (st'.table.typeForTag? tag).map st'.store.keyBehind?
  boxes : ∀ tag, st.table.boxForTag? tag = st'.table.boxForTag? tag
  platform : st.table.platform.keys st.store = st'.table.platform.keys st'.store
  core : st.table.core.map (·.keys st.store) = st'.table.core.map (·.keys st'.store)
  runtime : st.table.runtime.keys st.store = st'.table.runtime.keys st'.store
  /-- The operators of one name, or all of them, are listed alike. -/
  operators : ∀ name, CommandLine.operatorListing st.store (CommandLine.listed st.table st.store name) =
    CommandLine.operatorListing st'.store (CommandLine.listed st'.table st'.store name)

end Session

theorem CommandLine.operatorListing_congr {s s' : Store} {os os' : List OperatorSignature}
    (h : os.map (operatorLine s) = os'.map (operatorLine s')) :
    operatorListing s os = operatorListing s' os' := by
  have hlength : os.length = os'.length := by simpa using congrArg List.length h
  rw [operatorListing, operatorListing, h, hlength]

theorem Table.Furnished.corresponds {options : Options} {display : String} {st st' : Session}
    (h : st.table.Furnished options display st.store)
    (h' : st'.table.Furnished options display st'.store) : st.Corresponds st' := by
  obtain ⟨l, hgrown, hperm⟩ := h.grown
  obtain ⟨l', hgrown', hperm'⟩ := h'.grown
  have hperm := hperm.trans hperm'.symm
  have hground := filed_pseudoStore display
  have hlookup := hgrown.isSome_lookup?_congr hgrown' hground hperm
  constructor
  · exact hgrown.sameExtent hgrown' hground hperm
  · intro r
    have hcards : ∀ {t : Table} {s : Store}, t.Furnished options display s →
        (s.lookup? r).bind s.card? = if (s.lookup? r).isSome then some r.card else none := by
      intro t s h
      cases hr : s.lookup? r with
      | none => rfl
      | some id => exact h.filed.card? hr
    simp only [hcards h, hcards h', hlookup r]
  · intro flat p
    rw [h.inPhase_iff, h'.inPhase_iff]
    exact and_congr_left fun _ => hlookup (.cls flat)
  · rw [symbolCards_eq, symbolCards_eq, h.groundCards, h'.groundCards, h.memberCards, h'.memberCards,
      h.grounds, h'.grounds]
    rfl
  · rw [h.typeKeys, h'.typeKeys]
  · exact fun tag => (h.primitiveKeys tag).trans (h'.primitiveKeys tag).symm
  · exact fun tag => by rw [boxForTag?, h.primitives, boxForTag?, h'.primitives]
  · rw [h.platform.keys h.sound, h'.platform.keys h'.sound]
  · rw [h.coreKeys, h'.coreKeys]
  · rw [h.runtime.keys h.sound, h'.runtime.keys h'.sound]
  · intro name
    refine CommandLine.operatorListing_congr ?_
    cases name with
    | some name => exact (h.operatorLines name).trans (h'.operatorLines name).symm
    | none =>
      refine h.allOperatorLines.trans (Eq.trans ?_ h'.allOperatorLines.symm)
      rw [h.names, h'.names, h.predefClass, h'.predefClass]

namespace Session

/-- A table built without the core library has none of it. Once the core library is loaded, it
corresponds to a table that was built with it, and loading it again never changes anything. -/
theorem selfHosted_corresponds (release : Release) (messages : Messages) (w w' : World) :
    ∃ t v t' v', Table.build ⟨true, release⟩ messages ClassPath.resolver w = (.ok t, v) ∧
      Table.build ⟨false, release⟩ messages ClassPath.resolver w' = (.ok t', v') ∧
      t.core = none ∧ (∀ flat ∈ Catalog.flatNames Catalog.core, v.store.class? flat = none) ∧
      ((Session.mk t v).step .loadCore).Corresponds ⟨t', v'⟩ ∧
      (∀ ops ops', ((((Session.mk t v).run ops).step .loadCore).run ops').CoreSettled) ∧
      ∀ ops, ((Session.mk t' v').run ops).CoreSettled := by
  obtain ⟨t, v, hbuild, hfurnished⟩ := Table.building_furnished ⟨true, release⟩ messages w
  obtain ⟨t', v', hbuild', hfurnished'⟩ := Table.building_furnished ⟨false, release⟩ messages w'
  have hreach : Reachable ⟨t, v⟩ := .built hbuild
  have hreach' : Reachable ⟨t', v'⟩ := .built hbuild'
  have hloaded : t'.core.isSome := by
    rw [← Option.not_isNone, hfurnished'.deferred, Bool.not_false]
  refine ⟨t, v, t', v', hbuild, hbuild', Option.isNone_iff_eq_none.1 hfurnished.deferred,
    fun flat hflat => hfurnished.class?_core rfl hflat, hfurnished.loadCore.corresponds hfurnished',
    fun ops ops' => ?_, fun ops => ?_⟩
  · refine (((hreach.run ops).step .loadCore).run ops').coreSettled (isSome_core_run ops' ?_)
    exact isSome_core_loadCore _
  · exact (hreach'.run ops).coreSettled (isSome_core_run ops hloaded)

end Session

end SymbolTable
