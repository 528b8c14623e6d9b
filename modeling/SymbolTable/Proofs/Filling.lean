/-
How a scope comes to be filled.

A scope is opened, and then symbols are entered into it one after the other,
while anything else may become of the store in between (`FilledWith`). All
that is asked of the rest is that symbols keep their names and operators
their types (`Carries`). What the scope holds in the end is the list of what
was entered (`Filled`).

A symbol that a constructor made, however long ago, has a method type if it
is an operator (`Typed`). The predefined class of a table is a case in point:
its classes are made before it is, and its operators come last.
-/
import SymbolTable.Proofs.Construction
import SymbolTable.Proofs.Retention
import SymbolTable.Proofs.Scopes

namespace SymbolTable

/-! ## What a listing relies on -/

namespace Symbol

variable {sym sym' : Symbol}

/-- The name of a symbol, and the code and the type of an operator. -/
def label (sym : Symbol) : Name × Option (OperatorCode × TypeId) :=
  (sym.name, sym.operatorCode?.map (·, sym.ty))

theorem label_of_outline (h : sym'.outline = sym.outline) : sym'.label = sym.label := by
  rw [label, label, name_of_outline h, operatorCode_of_outline h, ty_of_outline h]

theorem operatorCode?_of_label (h : sym'.label = sym.label) :
    sym'.operatorCode? = sym.operatorCode? := by
  have hcode := congrArg (fun l => l.2.map Prod.fst) h
  simpa [label, Function.comp_def] using hcode

theorem ty_of_label (h : sym'.label = sym.label) (hop : sym.operatorCode?.isSome) :
    sym'.ty = sym.ty := by
  obtain ⟨code, hcode⟩ := Option.isSome_iff_exists.1 hop
  have hty := congrArg (fun l => l.2.map Prod.snd) h
  simpa [label, operatorCode?_of_label h, hcode] using hty

end Symbol

namespace Store

variable {s s' s'' : Store} {predef id : SymbolId} {ms : List SymbolId}

def label? (s : Store) (id : SymbolId) : Option (Name × Option (OperatorCode × TypeId)) :=
  (s.symbol? id).map Symbol.label

/-- Symbols keep their names and operators their types, and the types are what they were. -/
structure Carries (s s' : Store) : Prop where
  label : ∀ {id l}, s.label? id = some l → s'.label? id = some l
  form : ∀ {ty f}, s.form? ty = some f → s'.form? ty = some f

theorem Carries.refl (s : Store) : s.Carries s := ⟨fun h => h, fun h => h⟩

theorem Carries.trans (h : s.Carries s') (h' : s'.Carries s'') : s.Carries s'' :=
  ⟨fun a => h'.label (h.label a), fun a => h'.form (h.form a)⟩

theorem Carries.symbol? (h : s.Carries s') {sym : Symbol} (hs : s.symbol? id = some sym) :
    ∃ sym', s'.symbol? id = some sym' ∧ sym'.label = sym.label := by
  have hl : s.label? id = some sym.label := by rw [label?, hs, Option.map_some]
  exact Option.map_eq_some_iff.1 (h.label hl)

theorem carries_of_outline (ho : ∀ {id o}, s.outline? id = some o → s'.outline? id = some o)
    (hf : ∀ {ty f}, s.form? ty = some f → s'.form? ty = some f) : s.Carries s' where
  label {id l} hl := by
    obtain ⟨sym, hs, rfl⟩ := Option.map_eq_some_iff.1 hl
    have houtline : s.outline? id = some sym.outline := by rw [outline?, hs, Option.map_some]
    obtain ⟨sym', hs', he⟩ := Option.map_eq_some_iff.1 (ho houtline)
    rw [label?, hs', Option.map_some, Symbol.label_of_outline he]
  form := hf

theorem Keeps.carries (h : s.Keeps s') : s.Carries s' := carries_of_outline h.outline h.form

theorem Retains.carries (h : s.Retains s') : s.Carries s' := by
  refine carries_of_outline h.outline fun {ty f} hf => ?_
  obtain ⟨t, ht, rfl⟩ := Option.map_eq_some_iff.1 hf
  rw [form?, h.types (hasType_of_type? ht), ht, Option.map_some]

theorem Carries.hasSymbol (h : s.Carries s') (hid : s.HasSymbol id) : s'.HasSymbol id := by
  obtain ⟨sym, hs⟩ := hid.symbol?
  obtain ⟨sym', hs', -⟩ := h.symbol? hs
  exact hasSymbol_of_symbol? hs'

theorem Carries.nameOf (h : s.Carries s') (hid : s.HasSymbol id) : s'.nameOf id = s.nameOf id := by
  obtain ⟨sym, hs⟩ := hid.symbol?
  obtain ⟨sym', hs', hl⟩ := h.symbol? hs
  rw [nameOf_of_symbol? hs, nameOf_of_symbol? hs']
  exact congrArg Prod.fst hl

theorem Carries.map_nameOf (h : s.Carries s') (hms : ∀ m ∈ ms, s.HasSymbol m) :
    (ms.map fun m => (s'.nameOf m, m)) = ms.map fun m => (s.nameOf m, m) :=
  List.map_congr_left fun m hm => by rw [h.nameOf (hms m hm)]

theorem Carries.signature? (h : s.Carries s') {ty : TypeId} {g : Signature}
    (hg : s.signature? ty = some g) : s'.signature? ty = some g :=
  signature?_eq_some.2 (h.form (signature?_eq_some.1 hg))

/-! ## Entries -/

/-- The scope of `predef` was opened empty, and `ms` were entered into it since. Between two entries
the store may go through anything that leaves the scope alone. -/
inductive FilledWith (predef : SymbolId) : Store → List SymbolId → Prop
  | fresh {s : Store} {owner : SymbolId} (scope : s.members? predef = some (.members owner)) :
      FilledWith predef s []
  | enter {s s' : Store} {ms : List SymbolId} {m : SymbolId} (filled : FilledWith predef s ms)
      (known : s.HasSymbol m) (entered : s.enterMember predef m = .ok s') :
      FilledWith predef s' (ms ++ [m])
  | other {s s' : Store} {ms : List SymbolId} (filled : FilledWith predef s ms)
      (carries : s.Carries s') (scope : s'.members? predef = s.members? predef) :
      FilledWith predef s' ms

/-- The scope of `predef` is ordinary and holds `ms`, each entered under its name. -/
structure Filled (s : Store) (predef : SymbolId) (ms : List SymbolId) : Prop where
  scope : ∃ sc, s.members? predef = some sc ∧ sc.isError = false ∧
    sc.Records (ms.map fun m => (s.nameOf m, m))
  known : ∀ m ∈ ms, s.HasSymbol m

/-- What leaves a scope alone leaves its entries as they are. -/
theorem Filled.other (h : s.Filled predef ms) (hc : s.Carries s')
    (hs : s'.members? predef = s.members? predef) : s'.Filled predef ms where
  scope := by
    rw [hs, hc.map_nameOf h.known]
    exact h.scope
  known m hm := hc.hasSymbol (h.known m hm)

/-- An entry is recorded after those before it. -/
theorem Filled.enter (h : s.Filled predef ms) {m : SymbolId} (hm : s.HasSymbol m)
    (he : s.enterMember predef m = .ok s') : s'.Filled predef (ms ++ [m]) := by
  obtain ⟨sc, hsc, hkind, hrec⟩ := h.scope
  have hc := (retains_enterMember he).carries
  have hall : ∀ x ∈ ms ++ [m], s.HasSymbol x := by
    simpa [or_imp, forall_and] using ⟨h.known, hm⟩
  refine ⟨⟨sc.enter (s.nameOf m) m, ?_, hkind, ?_⟩, fun x hx => hc.hasSymbol (hall x hx)⟩
  · simp only [enterMember, hsc, Except.ok.injEq] at he
    exact he ▸ members?_enter hsc (s.nameOf m) m
  · rw [hc.map_nameOf hall, List.map_append]
    exact hrec.enter (s.nameOf m) m

theorem FilledWith.filled (h : s.FilledWith predef ms) : s.Filled predef ms := by
  induction h with
  | fresh hs => exact ⟨⟨_, hs, rfl, Scope.records_members _⟩, by simp⟩
  | enter _ hm he ih => exact ih.enter hm he
  | other _ hc hs ih => exact ih.other hc hs

end Store

/-! ## Constructors -/

/-- The constructor makes a symbol of its own, with all that belongs to it. -/
def Construct.makesSymbol : Construct → Bool
  | package .. | classOf .. | cls .. | method .. | operator .. | field .. => true
  | _ => false

namespace Store

variable {s s' : Store} {predef id : SymbolId} {ms : List SymbolId}

theorem symbol?_construct (c : Construct) (h : s.HasSymbol id) :
    (s.construct c).symbol? id = s.symbol? id := by
  generalize hs : s.construct c = s'
  cases hs ▸ s.constructs c with
  | type _ => rfl
  | symbol _ => rw [symbol?_addSymbol, if_neg h.ne_next]
  | both _ => exact symbol?_extend_old h

/-- A constructor made the symbol, in this store or in one that this one came from. -/
def Created (s : Store) (id : SymbolId) : Prop :=
  ∃ (s₀ : Store) (c : Construct), c.makesSymbol = true ∧ id = s₀.nextSymbol ∧
    (s₀.construct c).Carries s

theorem Created.carries (h : s.Created id) (hc : s.Carries s') : s'.Created id := by
  obtain ⟨s₀, c, hmakes, hid, hsince⟩ := h
  exact ⟨s₀, c, hmakes, hid, hsince.trans hc⟩

/-- Constructors may run between two entries. -/
theorem FilledWith.construct (h : s.FilledWith predef ms) (c : Construct) :
    (s.construct c).FilledWith predef ms := by
  obtain ⟨sc, hsc, -⟩ := h.filled.scope
  refine h.other (s.retains_construct c).carries ?_
  rw [members?, symbol?_construct c (hasSymbol_of_members? hsc), members?]

/-- The symbol has a method type if it is an operator. -/
def Typed (s : Store) (id : SymbolId) : Prop :=
  ∃ sym, s.symbol? id = some sym ∧
    (sym.operatorCode?.isSome → ∃ g, s.signature? sym.ty = some g)

theorem Typed.carries (h : s.Typed id) (hc : s.Carries s') : s'.Typed id := by
  obtain ⟨sym, hs, hop⟩ := h
  obtain ⟨sym', hs', hl⟩ := hc.symbol? hs
  refine ⟨sym', hs', fun hcode => ?_⟩
  rw [Symbol.operatorCode?_of_label hl] at hcode
  obtain ⟨g, hg⟩ := hop hcode
  exact ⟨g, Symbol.ty_of_label hl hcode ▸ hc.signature? hg⟩

theorem typed_construct {c : Construct} (h : c.makesSymbol = true) :
    (s.construct c).Typed s.nextSymbol := by
  have hextend : ∀ (t : Ty) (sym : Symbol), (sym.operatorCode?.isSome →
      ∃ g, (s.extend t sym).signature? sym.ty = some g) → (s.extend t sym).Typed s.nextSymbol :=
    fun t sym hop => ⟨sym, by rw [symbol?_extend, if_pos rfl], hop⟩
  cases c with
  | package name full owner => exact hextend _ _ (by simp [Symbol.operatorCode?])
  | classOf modifiers name full flat ty owner =>
    exact ⟨_, symbol?_addSymbol_self s _, by simp [Symbol.operatorCode?]⟩
  | cls modifiers name full flat owner => exact hextend _ _ (by simp [Symbol.operatorCode?])
  | method modifiers name g owner mc => exact hextend _ _ (by simp [Symbol.operatorCode?])
  | operator name g code owner mc =>
    refine hextend ⟨.method g, some mc⟩ _ fun _ => ⟨g, ?_⟩
    show (s.extend _ _).signature? s.nextType = some g
    rw [signature?, type?_extend, if_pos rfl]
  | field modifiers name ty owner =>
    exact ⟨_, symbol?_addSymbol_self s _, by simp [Symbol.operatorCode?]⟩
  | _ => simp [Construct.makesSymbol] at h

theorem Created.typed (h : s.Created id) : s.Typed id := by
  obtain ⟨s₀, c, hmakes, rfl, hsince⟩ := h
  exact (typed_construct hmakes).carries hsince

/-! ## The ground -/

theorem carries_extend {t t' : Ty} {sym sym' : Symbol} (ht : t'.form = t.form)
    (hl : sym'.label = sym.label) : (s.extend t sym).Carries (s.extend t' sym') where
  label {id l} h := by
    rw [label?, symbol?_extend] at h ⊢
    by_cases hid : id = s.nextSymbol
    · rw [if_pos hid, Option.map_some] at h ⊢
      rwa [hl]
    · rwa [if_neg hid] at h ⊢
  form {ty f} h := by
    rw [form?, type?_extend] at h ⊢
    by_cases hty : ty = s.nextType
    · rw [if_pos hty, Option.map_some] at h ⊢
      rwa [ht]
    · rwa [if_neg hty] at h ⊢

/-- The classes of the store were made by constructors. -/
def ClassesCreated (s : Store) : Prop := ∀ id, (s.classInfo? id).isSome → s.Created id

theorem ClassesCreated.extend (h : s.ClassesCreated) {t : Ty} {sym : Symbol}
    (hnew : (s.extend t sym).Created s.nextSymbol) : (s.extend t sym).ClassesCreated := by
  intro id hid
  by_cases hne : id = s.nextSymbol
  · exact hne ▸ hnew
  · rw [Store.classInfo?, symbol?_extend, if_neg hne] at hid
    exact (h id hid).carries (s.keeps_extend t sym).carries

/-- A primitive type is declared by its class once that is made. -/
theorem ClassesCreated.withPrimitives (h : s.ClassesCreated) (root : SymbolId)
    (rows : List (Tag × Name × Option String)) : (s.withPrimitives root rows).ClassesCreated := by
  induction rows generalizing s with
  | nil => exact h
  | cons row rows ih =>
    obtain ⟨tag, name, box⟩ := row
    exact ih (h.extend ⟨(s.addPrimitive tag).2,
      .classOf (.single .isPublic) name name name s.nextType root, rfl, rfl, carries_extend rfl rfl⟩)

/-- A pseudo-class gets its scope once it is made. -/
theorem ClassesCreated.withPseudo (h : s.ClassesCreated) (name : Name) (scope : SymbolId → Scope)
    (owner : SymbolId) : (s.withPseudo name scope owner).ClassesCreated :=
  h.extend ⟨s, .cls Build.pseudoModifiers name name name owner, rfl, rfl, carries_extend rfl rfl⟩

end Store

open Store Build TableM

/-- One class after the other becomes a member of the predefined class. -/
theorem Grounded.withPredefined {display : String} {s : Store} {p : Primitives}
    {ms xs : List SymbolId} (h : Grounded display s p) (hs : s.FilledWith pseudoIds.predef ms)
    (hxs : ∀ x ∈ xs, (s.classInfo? x).isSome) :
    s.Keeps (xs.foldl Store.withPredefined s) ∧
      (xs.foldl Store.withPredefined s).FilledWith pseudoIds.predef (ms ++ xs) := by
  induction xs generalizing s ms with
  | nil => exact ⟨.refl s, (List.append_nil ms).symm ▸ hs⟩
  | cons x xs ih =>
    have hx := hxs x List.mem_cons_self
    obtain ⟨henter, hground⟩ := h.enterMember hx
    have hk : s.Keeps (s.withPredefined x) := keeps_mapMembers ..
    obtain ⟨hkeeps, hfilled⟩ := ih hground (hs.enter (hasSymbol_of_isSome_classInfo? hx) henter)
      fun y hy => hk.isSome_classInfo? (hxs y (List.mem_cons_of_mem _ hy))
    exact ⟨hk.trans hkeeps, List.append_cons ms x xs ▸ hfilled⟩

namespace Store

variable {s s' : Store} {predef mc id : SymbolId} {ms : List SymbolId}

/-- A symbol with all that belongs to it has the signature that it had, or none as before. -/
theorem Typed.operatorSignature?_eq (h : s.Typed id) (hc : s.Carries s') :
    s'.operatorSignature? id = s.operatorSignature? id := by
  obtain ⟨sym, hs, hop⟩ := h
  obtain ⟨sym', hs', hl⟩ := hc.symbol? hs
  have hname : sym'.name = sym.name := congrArg Prod.fst hl
  simp only [operatorSignature?, hs, hs', Option.bind_eq_bind, Option.bind_some,
    Symbol.operatorCode?_of_label hl, hname]
  cases hcode : sym.operatorCode? with
  | none => rfl
  | some code =>
    have hsome : sym.operatorCode?.isSome := by rw [hcode]; rfl
    obtain ⟨g, hg⟩ := hop hsome
    rw [Symbol.ty_of_label hl hsome, hg, hc.signature? hg]

/-- An operator is made, and then it is entered. -/
theorem FilledWith.withOperator (h : s.FilledWith predef ms) (mc : SymbolId) (e : OperatorEntry) :
    (s.withOperator predef mc e).FilledWith predef (ms ++ [s.nextSymbol]) := by
  obtain ⟨sc, hsc, -⟩ := h.filled.scope
  exact .enter (h.construct (.operator e.name (.of e.params e.result) e.code predef mc))
    (hasSymbol_next_extend ..) (enterMember_addOperator hsc mc e)

theorem created_withOperator (s : Store) (predef mc : SymbolId) (e : OperatorEntry) :
    (s.withOperator predef mc e).Created s.nextSymbol :=
  ⟨s, .operator e.name (.of e.params e.result) e.code predef mc, rfl, rfl,
    (keeps_mapMembers ..).carries⟩

theorem FilledWith.withOperators (h : s.FilledWith predef ms) (mc : SymbolId)
    (entries : List OperatorEntry) : ∃ operators,
    (s.withOperators predef mc entries).FilledWith predef (ms ++ operators) ∧
      operators.length = entries.length ∧ s.Carries (s.withOperators predef mc entries) ∧
      ∀ m ∈ operators, ((s.withOperators predef mc entries).operatorSignature? m).isSome ∧
        (s.withOperators predef mc entries).Created m := by
  induction entries generalizing s ms with
  | nil => exact ⟨[], (List.append_nil ms).symm ▸ h, rfl, .refl s, by simp⟩
  | cons e entries ih =>
    have hcons : s.withOperators predef mc (e :: entries) =
      (s.withOperator predef mc e).withOperators predef mc entries := rfl
    rw [hcons]
    obtain ⟨sc, hsc, -⟩ := h.filled.scope
    have hc := (s.keeps_withOperator predef mc e).carries
    have hsig := operatorSignature?_withOperator (hasSymbol_of_members? hsc) mc e
    obtain ⟨operators, hfilled, hlength, hrest, hmade⟩ := ih (h.withOperator mc e)
    refine ⟨s.nextSymbol :: operators, ?_, by rw [List.length_cons, hlength, List.length_cons],
      hc.trans hrest, fun m hm => ?_⟩
    · rw [List.append_cons]
      exact hfilled
    · rcases List.mem_cons.1 hm with rfl | hm
      · have hcreated := s.created_withOperator predef mc e
        refine ⟨?_, hcreated.carries hrest⟩
        rw [hcreated.typed.operatorSignature?_eq hrest, hsig]
        rfl
      · exact hmade m hm

end Store

end SymbolTable
