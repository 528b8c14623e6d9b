/-
What a store grows by.

Whatever is done to a store comes down to four things: names are asked for,
a class is changed in what its outline leaves out, and methods or fields are
added. `Grows` strings these together and notes all but the changes in place
in a log. An invariant of the store is then shown for the four steps, and
sizes are read off the log.
-/
import SymbolTable.Proofs.Soundness

namespace SymbolTable

/-- What is added to a store. -/
inductive Change where
  /-- A name is asked for: what is missing of it and of what encloses it is entered. -/
  | request (r : Request)
  /-- A method or operator, with a type of its own. -/
  | method
  /-- A field, of a type that is there. -/
  | field
  deriving DecidableEq, Repr

/-- Classes are asked for by name, in order. -/
def Change.asking (flats : List Name) : List Change := flats.map fun flat => .request (.cls flat)

/-- The symbol is neither a class nor a package. -/
structure Symbol.IsLeaf (sym : Symbol) : Prop where
  cls : ∀ info, sym.body ≠ .cls info
  package : ∀ info, sym.body ≠ .package info

namespace Store

variable {s s' s'' : Store} {l l' : List Change}

/-- `s'` is what became of `s`, and the log says what was added. -/
inductive Grows (s : Store) : List Change → Store → Prop
  | refl : Grows s [] s
  | ask {l : List Change} {rs : List Request} {s₁ s₂ : Store} (h : Grows s l s₁)
      (asked : s₁.Asked rs s₂) : Grows s (l ++ rs.map .request) s₂
  | rework {l : List Change} {s₁ : Store} {id : SymbolId} {f : Symbol → Symbol} (h : Grows s l s₁)
      (kept : ∀ sym, s₁.symbol? id = some sym →
        (∃ info, sym.body = .cls info) ∧ (f sym).outline = sym.outline) :
      Grows s l (s₁.update id f)
  | method {l : List Change} {s₁ : Store} {g : Signature} {d : SymbolId} {sym : Symbol}
      (h : Grows s l s₁) (leaf : sym.IsLeaf) (known : ∀ x ∈ g.types, s₁.HasType x) :
      Grows s (l ++ [.method]) (s₁.extend ⟨.method g, some d⟩ sym)
  | field {l : List Change} {s₁ : Store} {sym : Symbol} (h : Grows s l s₁) (leaf : sym.IsLeaf) :
      Grows s (l ++ [.field]) (s₁.addSymbol sym).2

theorem Grows.asking (h : s.Grows l s') {flats : List Name} (asked : s'.Asked (flats.map .cls) s'') :
    s.Grows (l ++ Change.asking flats) s'' := by
  have hlog : Change.asking flats = (flats.map Request.cls).map Change.request := List.map_map.symm
  exact hlog ▸ h.ask asked

theorem Grows.trans (h : s.Grows l s') (h' : s'.Grows l' s'') : s.Grows (l ++ l') s'' := by
  induction h' with
  | refl => exact (List.append_nil l).symm ▸ h
  | ask _ asked ih => exact List.append_assoc l _ _ ▸ ih.ask asked
  | rework _ kept ih => exact ih.rework kept
  | method _ leaf known ih => exact List.append_assoc l _ _ ▸ ih.method leaf known
  | field _ leaf ih => exact List.append_assoc l _ _ ▸ ih.field leaf

theorem Grows.keeps (h : s.Grows l s') : s.Keeps s' := by
  induction h with
  | refl => exact .refl s
  | ask _ asked ih => exact ih.trans asked.entering.keeps
  | rework _ kept ih => exact ih.trans (keeps_update _ _ fun sym hs => (kept sym hs).2)
  | method _ _ _ ih => exact ih.trans (keeps_extend ..)
  | field _ _ ih => exact ih.trans (keeps_addSymbol ..)

theorem Grows.registered (h : s.Grows l s') (hr : s.Registered) : s'.Registered := by
  induction h with
  | refl => exact hr
  | ask _ asked ih => exact ih.entering asked.entering
  | rework _ kept ih => exact ih.of_maps (keeps_update _ _ fun sym hs => (kept sym hs).2) rfl rfl
  | method _ _ _ ih => exact ih.of_maps (keeps_extend ..) rfl rfl
  | field _ _ ih => exact ih.of_maps (keeps_addSymbol ..) rfl rfl

/-! ## Types -/

theorem Enters.type? (he : Enters s s') {ty : TypeId} (h : s.HasType ty) : s'.type? ty = s.type? ty := by
  have hold : ∀ t, (s.addType t).2.type? ty = s.type? ty := fun t => by
    rw [type?_addType, if_neg h.ne_next]
  cases he with
  | package _ _ _ => exact hold _
  | top _ _ _ => exact hold _
  | nested _ _ _ => exact hold _

theorem Entering.type? (he : Entering s s') {ty : TypeId} (h : s.HasType ty) :
    s'.type? ty = s.type? ty := by
  induction he with
  | refl => rfl
  | tail hpath hstep ih => exact (hstep.type? (Entering.keeps hpath |>.hasType h)).trans ih

/-- A type never changes. -/
theorem Grows.type? (h : s.Grows l s') {ty : TypeId} (hty : s.HasType ty) :
    s'.type? ty = s.type? ty := by
  induction h with
  | refl => rfl
  | ask h asked ih => exact (asked.entering.type? (h.keeps.hasType hty)).trans ih
  | rework _ _ ih => exact ih
  | method h _ _ ih => exact (type?_extend_old (h.keeps.hasType hty)).trans ih
  | field _ _ ih => exact ih

/-! ## Sizes -/

/-- The number of registered names. -/
def nameCount (s : Store) : Nat := s.classes.size + s.packages.size

theorem Enters.sizes (he : Enters s s') : s'.symbols.size = s.symbols.size + 1 ∧
    s'.types.size = s.types.size + 1 ∧ s'.nameCount = s.nameCount + 1 := by
  have hcls : ∀ {simple flat : Name} {owner : SymbolId}, s.class? flat = none →
      (s.withClass simple flat owner).nameCount = s.nameCount + 1 := by
    intro simple flat owner fresh
    have hsize := OrderedMap.size_insert_of_none fresh s.nextSymbol
    simp only [nameCount, withClass, insertClass, extend, addSymbol, addType] at hsize ⊢
    omega
  cases he with
  | package fresh _ _ =>
    have hsize := OrderedMap.size_insert_of_none fresh s.nextSymbol
    refine ⟨Array.size_push .., Array.size_push .., ?_⟩
    simp only [nameCount, withPackage, insertPackage, addPackage_eq, extend, addSymbol, addType]
      at hsize ⊢
    omega
  | top fresh _ _ =>
    refine ⟨?_, Array.size_push .., hcls fresh⟩
    exact (Array.size_modify ..).trans (Array.size_push ..)
  | nested fresh _ _ => exact ⟨Array.size_push .., Array.size_push .., hcls fresh⟩

/-- An entry is one symbol, one type and one name. -/
theorem Entering.sizes (he : Entering s s') :
    s'.symbols.size + s.nameCount = s.symbols.size + s'.nameCount ∧
      s'.types.size + s.nameCount = s.types.size + s'.nameCount := by
  induction he with
  | refl => exact ⟨rfl, rfl⟩
  | tail _ hstep ih =>
    obtain ⟨hsym, hty, hname⟩ := hstep.sizes
    omega

/-- What a store has besides its registered names is what the log says. -/
theorem Grows.sizes (h : s.Grows l s') :
    s'.symbols.size + s.nameCount =
        s.symbols.size + s'.nameCount + l.count .method + l.count .field ∧
      s'.types.size + s.nameCount = s.types.size + s'.nameCount + l.count .method := by
  induction h with
  | refl => exact ⟨rfl, rfl⟩
  | @ask l rs s₁ s₂ _ asked ih =>
    have hrs : ∀ c : Change, (∀ r, c ≠ .request r) → (l ++ rs.map Change.request).count c = l.count c := by
      intro c hc
      have hnot : c ∉ rs.map Change.request := by
        simp only [List.mem_map, not_exists, not_and]
        exact fun r _ he => hc r he.symm
      rw [List.count_append, List.count_eq_zero.2 hnot, Nat.add_zero]
    have hsizes := asked.entering.sizes
    rw [hrs .method (by simp), hrs .field (by simp)]
    omega
  | @rework l s₁ id f _ _ ih =>
    have hsize : (s₁.update id f).symbols.size = s₁.symbols.size := Array.size_modify ..
    have hname : (s₁.update id f).nameCount = s₁.nameCount := rfl
    have htypes : (s₁.update id f).types = s₁.types := rfl
    rw [hsize, hname, htypes]
    exact ih
  | @method l s₁ g d sym _ _ _ ih =>
    set t : Ty := ⟨.method g, some d⟩
    have hsym : (s₁.extend t sym).symbols.size = s₁.symbols.size + 1 := Array.size_push ..
    have hty : (s₁.extend t sym).types.size = s₁.types.size + 1 := Array.size_push ..
    have hname : (s₁.extend t sym).nameCount = s₁.nameCount := rfl
    simp only [List.count_append, List.count_singleton, hsym, hty, hname]
    simp
    omega
  | @field l s₁ sym _ _ ih =>
    have hsym : (s₁.addSymbol sym).2.symbols.size = s₁.symbols.size + 1 := Array.size_push ..
    have hname : (s₁.addSymbol sym).2.nameCount = s₁.nameCount := rfl
    have htypes : (s₁.addSymbol sym).2.types = s₁.types := rfl
    simp only [List.count_append, List.count_singleton, hsym, hname, htypes]
    simp
    omega

/-! ## Operations -/

theorem Enters.asked (he : Enters s s') : ∃ r, s.Asked [r] s' := by
  have hone : ∀ r id, (∀ q, s'.lookup? q = if q = r then some id else s.lookup? q) →
      s.Asked [r] s' := by
    intro r id hlookup
    refine ⟨.single he, by simp [hlookup], fun q hq => ?_⟩
    rw [hlookup] at hq
    split at hq
    · next heq => exact .inr ⟨r, List.mem_singleton_self r, heq ▸ .refl⟩
    · exact .inl hq
  cases he with
  | package _ _ _ => exact ⟨_, hone _ _ (lookup?_withPackage _ _ _)⟩
  | top _ _ _ => exact ⟨_, hone _ _ (lookup?_withTopClass _ _ _)⟩
  | nested _ _ _ => exact ⟨_, hone _ _ (lookup?_withClass _ _ _ _)⟩

theorem Entering.grows (he : Entering s s') : ∃ l, s.Grows l s' := by
  induction he with
  | refl => exact ⟨[], .refl⟩
  | tail _ hstep ih =>
    obtain ⟨l, hl⟩ := ih
    obtain ⟨r, hr⟩ := hstep.asked
    exact ⟨_, hl.ask hr⟩

section Rework

variable {id : SymbolId}

/-- A class changes in what its outline leaves out. -/
theorem Grows.update (h : s.Grows l s') {f : Symbol → Symbol} (hc : (s'.classInfo? id).isSome)
    (hf : ∀ sym, (f sym).outline = sym.outline) : s.Grows l (s'.update id f) := by
  obtain ⟨info, hinfo⟩ := Option.isSome_iff_exists.1 hc
  obtain ⟨sym, hs, hb⟩ := classInfo?_eq_some.1 hinfo
  refine h.rework fun sym' hs' => ⟨⟨info, ?_⟩, hf sym'⟩
  obtain rfl := Option.some.inj (hs.symm.trans hs')
  exact hb

theorem Grows.mapClass (h : s.Grows l s') {f : ClassInfo → ClassInfo}
    (hc : (s'.classInfo? id).isSome) (hf : ∀ info, (f info).fullName = info.fullName ∧
      (f info).flatName = info.flatName ∧ (f info).erroneous = info.erroneous) :
    s.Grows l (s'.update id (Symbol.mapClass f)) :=
  h.update hc (Symbol.outline_mapClass hf)

theorem Grows.addModifiers (h : s.Grows l s') (hc : (s'.classInfo? id).isSome) (m : Modifiers) :
    s.Grows l (s'.addModifiers id m) :=
  h.update hc fun _ => rfl

theorem grows_dropCompleter (s : Store) (hc : (s.classInfo? id).isSome) :
    s.Grows [] (s.dropCompleter id) :=
  Grows.refl.mapClass hc (by simp)

theorem grows_fallBack (s : Store) (id : SymbolId) (f : Completer) : s.Grows [] (s.fallBack id f) := by
  unfold fallBack
  split
  · exact .refl
  · next base hbase =>
    obtain ⟨info, hinfo, -⟩ := Option.bind_eq_some_iff.1 hbase
    exact Grows.refl.mapClass (by simp [hinfo]) (by simp)

theorem Grows.withMethod (h : s.Grows l s') (hc : (s'.classInfo? id).isSome) {g : Signature}
    (hg : ∀ ty ∈ g.types, s'.HasType ty) (modifiers : Modifiers) (name : Name) (mc : SymbolId) :
    s.Grows (l ++ [.method]) (s'.withMethod modifiers name g id mc) := by
  have hadd : s.Grows (l ++ [.method]) (s'.addMethod modifiers name g id mc).2 :=
    h.method (d := mc) ⟨by simp, by simp⟩ hg
  exact hadd.update ((s'.keeps_extend _ _).isSome_classInfo? hc) (Symbol.outline_mapMembers _)

end Rework

end Store

open Store

/-! ## Completing -/

/-- What a stand-in adds: a wrapper has two methods. -/
def Completer.standinChanges : Completer → List Change
  | .box _ => [.method, .method]
  | _ => []

/-- What is added as a class is completed: the names that its definition mentions are asked for, and
what stands in for a missing definition is made up. -/
def Completer.changes (path : ClassPath) (flat : Name) (c : Completer) : List Change :=
  match path.get? flat with
  | some d =>
    if d.corrupt = none then Change.asking (d.supertype.toList ++ d.interfaces) else []
  | none => (c.standin?.map standinChanges).getD []

theorem Store.Grows.standIn {s : Store} {id : SymbolId} {mc : SymbolId} {f : Completer}
    (hc : (s.classInfo? id).isSome) (hty : s.HasType (s.typeOf id)) (hf : f.Linked s mc) :
    s.Grows f.standinChanges (s.standIn id f) := by
  have hbelow : ∀ m object, s.Grows [] ((s.addModifiers id m).below id object) := by
    intro m object
    refine (Grows.refl.addModifiers hc m).mapClass ?_ (by simp)
    exact (s.keeps_addModifiers id m).isSome_classInfo? hc
  cases f with
  | emptyInterface object => exact hbelow _ object
  | box plan =>
    have hfirst := hbelow (.single .isPublic) plan.object
    set s₁ := (s.addModifiers id (.single .isPublic)).below id plan.object
    have hprim := hfirst.keeps.hasType hf.1
    have hsecond := hfirst.withMethod (g := .of [plan.primitive] (s₁.typeOf id))
      (hfirst.keeps.isSome_classInfo? hc)
      (by
        obtain ⟨info, hinfo⟩ := Option.isSome_iff_exists.1 hc
        obtain ⟨sym, hs, -⟩ := classInfo?_eq_some.1 hinfo
        rw [hfirst.keeps.typeOf (hasSymbol_of_symbol? hs)]
        simpa [Signature.types, Signature.of] using ⟨hprim, hfirst.keeps.hasType hty⟩)
      (.ofFlags [.isPublic, .isStatic]) plan.factory plan.methodClass
    refine hsecond.withMethod (hsecond.keeps.isSome_classInfo? hc) ?_ (.single .isPublic) plan.unbox
      plan.methodClass
    simpa [Signature.types, Signature.of] using hsecond.keeps.hasType hf.1
  | _ => exact .refl

theorem Store.Completes.grows {s s' : Store} {path : ClassPath} {flat : Name} {id mc : SymbolId}
    {c : Completer} {o : Completed} (h : s.Completes path flat id c o s')
    (hc : (s.classInfo? id).isSome) (hty : s.HasType (s.typeOf id)) (hl : c.Linked s mc) :
    s.Grows (c.changes path flat) s' := by
  have hfailed : ∀ kind, s.Grows [] (s.recordFailure id kind) := fun kind =>
    Grows.refl.mapClass hc (by simp)
  cases h with
  | @read d s₁ supertype interfaces found readable asked _ _ =>
    have hlog : c.changes path flat = [] ++ Change.asking (d.supertype.toList ++ d.interfaces) := by
      simp only [Completer.changes, found, readable, if_true, List.nil_append]
    have hc₁ := asked.entering.keeps.isSome_classInfo? hc
    rw [hlog]
    exact ((Grows.refl.asking asked).addModifiers hc₁ d.modifiers).mapClass
      ((s₁.keeps_addModifiers id _).isSome_classInfo? hc₁) (by simp)
  | @stoodFor f missing standin =>
    have hlog : c.changes path flat = f.standinChanges := by
      simp [Completer.changes, missing, standin]
    exact hlog ▸ .standIn hc hty (hl.standin standin)
  | corrupt found unreadable =>
    have hlog : c.changes path flat = [] := by simp [Completer.changes, found, unreadable]
    exact hlog ▸ hfailed _
  | missing missing alone =>
    have hlog : c.changes path flat = [] := by simp [Completer.changes, missing, alone]
    exact hlog ▸ hfailed _

theorem World.complete_grows {w : World} {root mc id : SymbolId} {c : Completer} {flat : Name}
    (h : w.store.Sound root mc) (hp : w.store.completer? id = some c) (hr : c.Reads flat) :
    w.store.Grows (c.changes w.path flat) (w.complete ClassPath.resolver id).2.store := by
  obtain ⟨sym, info, hs, hb, hcompleter⟩ := completer?_eq_some.1 hp
  have hc : (w.store.classInfo? id).isSome := by simp [classInfo?_eq_some.2 ⟨sym, hs, hb⟩]
  have hlinked := h.linked.symbols id sym hs
  have hdrop := w.store.grows_dropCompleter hc
  have hty := h.linked.hasType_typeOf (hasSymbol_of_symbol? hs)
  have hcl : c.Linked _ mc := (hlinked.completer info c hb hcompleter).mono hdrop.keeps
  refine hdrop.trans ((complete_completes h.registered hp hr).grows
    (hdrop.keeps.isSome_classInfo? hc) ?_ hcl)
  rw [hdrop.keeps.typeOf (hasSymbol_of_symbol? hs)]
  exact hdrop.keeps.hasType hty

end SymbolTable
