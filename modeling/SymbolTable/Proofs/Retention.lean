/-
What no operation takes back, whatever state the store is in.

A store need not be that of a table. It can be put together by hand: symbols
and types are constructed with any identities, scopes are opened and reset,
completers are left on any class. Even so no type changes and no symbol
loses its outline (`Retains`). That is shown for the constructors, for the
resolution of names and for every completer, then for every act and for any
number of acts.
-/
import SymbolTable.Proofs.Completing

namespace SymbolTable

namespace Store

variable {s s' s'' : Store} {id : SymbolId}

/-- Whatever `s` has, `s'` has too: its types as they are, and the outlines of its symbols. -/
structure Retains (s s' : Store) : Prop where
  types : ∀ {ty}, s.HasType ty → s'.type? ty = s.type? ty
  outline : ∀ {id o}, s.outline? id = some o → s'.outline? id = some o

theorem Retains.refl (s : Store) : s.Retains s := ⟨fun _ => rfl, id⟩

theorem Retains.hasType (h : s.Retains s') {ty : TypeId} (hty : s.HasType ty) : s'.HasType ty := by
  obtain ⟨t, ht⟩ := hty.type?
  exact hasType_of_type? ((h.types hty).trans ht)

theorem Retains.trans (h : s.Retains s') (h' : s'.Retains s'') : s.Retains s'' where
  types hty := (h'.types (h.hasType hty)).trans (h.types hty)
  outline ho := h'.outline (h.outline ho)

theorem Retains.symbol? (h : s.Retains s') {sym : Symbol} (hs : s.symbol? id = some sym) :
    ∃ sym', s'.symbol? id = some sym' ∧ sym'.outline = sym.outline := by
  have ho : s.outline? id = some sym.outline := by simp [outline?, hs]
  exact Option.map_eq_some_iff.1 (h.outline ho)

theorem Retains.hasSymbol (h : s.Retains s') (hid : s.HasSymbol id) : s'.HasSymbol id := by
  obtain ⟨sym, hs⟩ := hid.symbol?
  obtain ⟨sym', hs', -⟩ := h.symbol? hs
  exact hasSymbol_of_symbol? hs'

theorem Retains.nameOf (h : s.Retains s') (hid : s.HasSymbol id) : s'.nameOf id = s.nameOf id := by
  obtain ⟨sym, hs⟩ := hid.symbol?
  obtain ⟨sym', hs', ho⟩ := h.symbol? hs
  rw [nameOf_of_symbol? hs, nameOf_of_symbol? hs', Symbol.name_of_outline ho]

theorem Retains.classInfo? (h : s.Retains s') {info : ClassInfo} (hc : s.classInfo? id = some info) :
    ∃ info', s'.classInfo? id = some info' := by
  obtain ⟨sym, hs, hb⟩ := classInfo?_eq_some.1 hc
  obtain ⟨sym', hs', ho⟩ := h.symbol? hs
  obtain ⟨info', hb', -⟩ := Symbol.classInfo_of_outline ho hb
  exact ⟨info', classInfo?_eq_some.2 ⟨sym', hs', hb'⟩⟩

/-- A store that keeps another and has the types of the other as they were retains it. -/
theorem Keeps.retains (h : s.Keeps s') (ht : ∀ {ty}, s.HasType ty → s'.type? ty = s.type? ty) :
    s.Retains s' := ⟨ht, h.outline⟩

theorem Keeps.retains_of_types (h : s.Keeps s') (ht : s'.types = s.types) : s.Retains s' :=
  h.retains fun _ => by rw [Store.type?, ht, Store.type?]

theorem retains_addType (s : Store) (t : Ty) : s.Retains (s.addType t).2 :=
  (s.keeps_addType t).retains fun hty => by rw [type?_addType, if_neg hty.ne_next]

theorem retains_addSymbol (s : Store) (sym : Symbol) : s.Retains (s.addSymbol sym).2 :=
  (s.keeps_addSymbol sym).retains_of_types rfl

theorem retains_extend (s : Store) (t : Ty) (sym : Symbol) : s.Retains (s.extend t sym) :=
  (s.retains_addType t).trans ((s.addType t).2.retains_addSymbol sym)

theorem retains_update (s : Store) (id : SymbolId) {f : Symbol → Symbol}
    (hf : ∀ sym, (f sym).outline = sym.outline) : s.Retains (s.update id f) :=
  (keeps_update s id fun sym _ => hf sym).retains_of_types rfl

theorem retains_mapMembers (s : Store) (id : SymbolId) (f : Scope → Scope) :
    s.Retains (s.update id (Symbol.mapMembers f)) :=
  s.retains_update id (Symbol.outline_mapMembers f)

theorem retains_mapClass (s : Store) (id : SymbolId) {f : ClassInfo → ClassInfo}
    (hf : ∀ info, (f info).fullName = info.fullName ∧ (f info).flatName = info.flatName ∧
      (f info).erroneous = info.erroneous) : s.Retains (s.update id (Symbol.mapClass f)) :=
  s.retains_update id (Symbol.outline_mapClass hf)

theorem retains_updateClass {f : ClassInfo → ClassInfo}
    (hf : ∀ info, (f info).fullName = info.fullName ∧ (f info).flatName = info.flatName ∧
      (f info).erroneous = info.erroneous) (h : s.updateClass id f = .ok s') : s.Retains s' := by
  unfold updateClass at h
  split at h
  · obtain rfl := Except.ok.inj h
    exact s.retains_mapClass id hf
  · cases h

theorem retains_enterMember {owner member : SymbolId} (h : s.enterMember owner member = .ok s') :
    s.Retains s' := by
  unfold enterMember at h
  split at h
  · obtain rfl := Except.ok.inj h
    exact s.retains_mapMembers owner _
  · cases h

theorem retains_fallBack (s : Store) (id : SymbolId) (f : Completer) :
    s.Retains (s.fallBack id f) := by
  unfold fallBack
  split
  · exact .refl s
  · exact s.retains_mapClass id (by simp)

end Store

/-! ## Constructors -/

/-- The constructors of a store, with what they are given. -/
inductive Construct where
  | primitive (tag : Tag)
  | classType (symbol : SymbolId)
  | packageType (symbol : SymbolId)
  | errorType (symbol : SymbolId) (failed : Option TypeId)
  | methodType (signature : Signature) (methodClass : SymbolId)
  /-- A symbol as it is given. -/
  | symbol (symbol : Symbol)
  | package (name full : Name) (owner : Option SymbolId)
  /-- A class whose type exists already. -/
  | classOf (modifiers : Modifiers) (name full flat : Name) (ty : TypeId) (owner : SymbolId)
  | cls (modifiers : Modifiers) (name full flat : Name) (owner : SymbolId)
  | method (modifiers : Modifiers) (name : Name) (signature : Signature)
      (owner methodClass : SymbolId)
  | operator (name : Name) (signature : Signature) (code : OperatorCode)
      (owner methodClass : SymbolId)
  | field (modifiers : Modifiers) (name : Name) (ty : TypeId) (owner : SymbolId)

/-- The signature that a constructor is given, if it makes a method type. -/
def Construct.signature? : Construct → Option Signature
  | methodType g _ => some g
  | method _ _ g _ _ => some g
  | operator _ g _ _ _ => some g
  | _ => none

namespace Store

variable {s : Store}

def construct (s : Store) : Construct → Store
  | .primitive tag => (s.addPrimitive tag).2
  | .classType symbol => (s.addClassType symbol).2
  | .packageType symbol => (s.addPackageType symbol).2
  | .errorType symbol failed => (s.addErrorType symbol failed).2
  | .methodType g mc => (s.addMethodType g mc).2
  | .symbol symbol => (s.addSymbol symbol).2
  | .package name full owner => (s.addPackage name full owner).2
  | .classOf modifiers name full flat ty owner => (s.addClassOf modifiers name full flat ty owner).2
  | .cls modifiers name full flat owner => (s.addClass modifiers name full flat owner).2
  | .method modifiers name g owner mc => (s.addMethod modifiers name g owner mc).2
  | .operator name g code owner mc => (s.addOperator name g code owner mc).2
  | .field modifiers name ty owner => (s.addVariable modifiers name ty owner).2

/-- What a constructor makes of a store: it adds a type, a symbol, or one after the other. -/
inductive Constructs (s : Store) (c : Construct) : Store → Prop
  | type {t : Ty} (signature : t.form.signature? = c.signature?) : Constructs s c (s.addType t).2
  | symbol {sym : Symbol} (signature : c.signature? = none) : Constructs s c (s.addSymbol sym).2
  | both {t : Ty} {sym : Symbol} (signature : t.form.signature? = c.signature?) :
      Constructs s c (s.extend t sym)

theorem constructs (s : Store) (c : Construct) : s.Constructs c (s.construct c) := by
  cases c with
  | primitive tag => exact .type rfl
  | classType symbol => exact .type rfl
  | packageType symbol => exact .type rfl
  | errorType symbol failed => exact .type rfl
  | methodType g mc => exact .type rfl
  | symbol symbol => exact .symbol rfl
  | package name full owner => exact .both rfl
  | classOf modifiers name full flat ty owner => exact .symbol rfl
  | cls modifiers name full flat owner => exact .both rfl
  | method modifiers name g owner mc => exact .both rfl
  | operator name g code owner mc => exact .both rfl
  | field modifiers name ty owner => exact .symbol rfl

theorem retains_construct (s : Store) (c : Construct) : s.Retains (s.construct c) := by
  generalize hs : s.construct c = s'
  cases hs ▸ s.constructs c with
  | type _ => exact s.retains_addType _
  | symbol _ => exact s.retains_addSymbol _
  | both _ => exact s.retains_extend _ _

/-! ## Resolution -/

/-- A property of stores that the entry of a name keeps, wherever the name is entered. -/
structure EntryStable (P : Store → Prop) : Prop where
  package : ∀ {s} simple full owner, P s →
    P ((s.addPackage simple full owner).2.insertPackage full s.nextSymbol)
  cls : ∀ {s} simple flat owner, P s → P (s.withClass simple flat owner)
  member : ∀ {s} owner name member, P s →
    P (s.update owner (Symbol.mapMembers fun scope => scope.enter name member))

namespace EntryStable

variable {P : Store → Prop} {w : World}

theorem enterPackageIn (h : EntryStable P) (full : Name) (outer : List Name) (hw : P w.store) :
    P (w.enterPackageIn full outer).2.store := by
  induction outer generalizing w full with
  | nil =>
    simp only [World.enterPackageIn]
    split
    · exact hw
    · exact h.package _ full none hw
  | cons parent outer ih =>
    simp only [World.enterPackageIn]
    split
    · exact hw
    · exact h.package _ full _ (ih (w := w.see parent) parent hw)

theorem enterPackage (h : EntryStable P) (full : Name) (hw : P w.store) :
    P (w.enterPackage full).2.store := h.enterPackageIn full _ hw

theorem addClass (h : EntryStable P) (simple flat : Name) (owner : SymbolId) (hw : P w.store) :
    P (w.addClass simple flat owner).2.store :=
  (w.addClass_store simple flat owner).2 ▸ h.cls simple flat owner hw

theorem addTopClass (h : EntryStable P) (flat : Name) (hw : P w.store) :
    P (w.addTopClass flat).2.store := by
  have hp : P (((w.see flat.dotted).see flat.packagePart).enterPackage flat.packagePart).2.store :=
    h.enterPackage _ hw
  cases hr : ((w.see flat.dotted).see flat.packagePart).enterPackage flat.packagePart with
  | mk owner w₁ =>
    rw [hr] at hp
    rw [(w.addTopClass_store hr).2]
    exact h.member owner _ _ (h.cls _ flat owner hp)

theorem enterClassIn (h : EntryStable P) (flat : Name) (outer : List Name) (hw : P w.store) :
    P (w.enterClassIn flat outer).2.store := by
  induction outer generalizing w flat with
  | nil =>
    simp only [World.enterClassIn]
    split
    · exact hw
    · exact h.addTopClass flat hw
  | cons parent outer ih =>
    simp only [World.enterClassIn]
    split
    · exact hw
    · exact h.addClass _ flat _ (ih (w := (w.see flat.dotted).see parent) parent hw)

theorem enterClass (h : EntryStable P) (flat : Name) (hw : P w.store) :
    P (w.enterClass flat).2.store := h.enterClassIn flat _ hw

end EntryStable

theorem entryStable_retains (s₀ : Store) : EntryStable fun s => s₀.Retains s where
  package {s} _ _ _ h :=
    (h.trans (s.retains_extend _ _)).trans ⟨fun _ => rfl, fun ho => ho⟩
  cls {s} _ _ _ h :=
    (h.trans (s.retains_extend _ _)).trans ⟨fun _ => rfl, fun ho => ho⟩
  member owner _ _ h := h.trans (retains_mapMembers _ owner _)

end Store

open Store

/-- Whatever the resolver is asked for, the store retains what it has. -/
def Resolver.Retains (r : Resolver) : Prop :=
  ∀ (flat : Name) (w : World), w.store.Retains (r.resolveClass flat w).2.store

theorem ClassPath.retains_resolver : ClassPath.resolver.Retains := fun flat w =>
  (entryStable_retains w.store).enterClass flat (.refl _)

/-- What the answers of a resolver keep, any number of them keeps. -/
theorem Resolver.askTypes_keeps {P : Store → Prop} {r : Resolver}
    (hr : ∀ (flat : Name) (w : World), P w.store → P (r.resolveClass flat w).2.store)
    (flats : List Name) {w : World} (hw : P w.store) : P (r.askTypes flats w).2.store := by
  induction flats generalizing w with
  | nil => exact hw
  | cons flat flats ih =>
    exact ih (hr flat { w.see flat with requests := w.requests ++ [.cls flat] } hw)

theorem Resolver.Retains.askTypes {r : Resolver} (h : r.Retains) (flats : List Name) (w : World) :
    w.store.Retains (r.askTypes flats w).2.store :=
  r.askTypes_keeps (fun flat w' hw => hw.trans (h flat w')) flats (.refl w.store)

/-! ## Completing -/

theorem World.retains_settle {w : World} {s₀ : Store} {blame : FailureKind → CompletionFailure}
    {e : Except TableError Store} (hw : s₀.Retains w.store) (he : ∀ s, e = .ok s → s₀.Retains s) :
    s₀.Retains (w.settle blame e).2.store := by
  cases e with
  | ok s => exact he s rfl
  | error e => exact hw

theorem World.retains_fillIn (w : World) (id : SymbolId) (flat : Name) (modifiers : Modifiers)
    (supertype : Option TypeId) (interfaces : List TypeId) :
    w.store.Retains (w.fillIn id flat modifiers supertype interfaces).2.store := by
  have hmodified := w.store.retains_update id
    (f := fun symbol => { symbol with modifiers := symbol.modifiers ∪ modifiers }) fun _ => rfl
  exact retains_settle hmodified fun s hs => hmodified.trans (retains_updateClass (by simp) hs)

theorem World.retains_readDefinition {r : Resolver} (hr : r.Retains) (flat : Name) (id : SymbolId)
    (w : World) : w.store.Retains (w.readDefinition r flat id).2.store := by
  unfold readDefinition
  split
  · exact .refl _
  · next d _ =>
    split
    · exact .refl _
    · exact ((hr.askTypes d.supertype.toList w).trans (hr.askTypes d.interfaces _)).trans
        (retains_fillIn ..)

theorem Store.retains_declareMethod {s s' : Store} {modifiers : Modifiers} {name : Name}
    {g : Signature} {owner mc : SymbolId} (h : s.declareMethod modifiers name g owner mc = .ok s') :
    s.Retains s' :=
  (s.retains_extend _ _).trans (retains_enterMember h)

theorem Store.retains_standAsBox {s s' : Store} {plan : BoxPlan} {id : SymbolId}
    (h : s.standAsBox plan id = .ok s') : s.Retains s' := by
  simp only [standAsBox, bind, Except.bind] at h
  split at h
  · cases h
  · next s₁ h₁ =>
    split at h
    · cases h
    · next s₂ h₂ =>
      exact ((retains_updateClass (by simp) h₁).trans (retains_declareMethod h₂)).trans
        (retains_declareMethod h)

/-- Whatever a completer does, the store retains what it has, if that is so of the completions inside
it. -/
theorem Completer.retains_run {r : Resolver} (hr : r.Retains)
    {nested : SymbolId → World → Completed × World}
    (hnested : ∀ (id : SymbolId) (w : World), w.store.Retains (nested id w).2.store) (c : Completer)
    (given : Option CompletionFailure) (id : SymbolId) (w : World) :
    w.store.Retains (c.run r nested given id w).2.store := by
  have hmodify : ∀ (w : World) m, w.store.Retains (w.store.addModifiers id m) := fun w m =>
    w.store.retains_update id fun _ => rfl
  induction c generalizing given w with
  | done => exact .refl _
  | classFile flat => exact World.retains_readDefinition hr flat id w
  | emptyInterface object =>
    exact World.retains_settle (hmodify w _) fun s hs =>
      (hmodify w _).trans (retains_updateClass (by simp) hs)
  | box plan =>
    exact World.retains_settle (hmodify w _) fun s hs => (hmodify w _).trans (retains_standAsBox hs)
  | orElse base fallback ih ih' =>
    have hbase := ih none w
    simp only [Completer.run]
    generalize base.run r nested none id w = out at hbase ⊢
    obtain ⟨failure | _, w₁⟩ := out
    · simp only
      split
      · exact hbase.trans (ih' (some failure) w₁)
      · exact hbase
    · exact hbase
  | modify m next ih =>
    exact (hmodify w m).trans (ih given { w with store := w.store.addModifiers id m })
  | openMembers next ih =>
    simp only [Completer.run]
    split
    · next s hs => exact (retains_updateClass (by simp) hs).trans (ih given { w with store := s })
    · exact ih given w
  | request flat next ih =>
    exact (hr flat { w.see flat with requests := w.requests ++ [.cls flat] }).trans (ih given _)
  | complete flat next ih =>
    simp only [Completer.run]
    split
    · exact ih given (w.see flat)
    · next other _ =>
      have hother := hnested other (w.see flat)
      generalize nested other (w.see flat) = out at hother ⊢
      obtain ⟨failure | _, w₁⟩ := out
      · exact hother
      · exact Retains.trans hother (ih given w₁)
  | install completer next _ ih =>
    exact (w.store.retains_mapClass id (by simp)).trans
      (ih given { w with store := w.store.setCompleter id completer })
  | notFound name => exact .refl _
  | badClassFile name reason => exact .refl _
  | rethrow next ih =>
    cases given with
    | some failure => exact .refl _
    | none => exact ih none w

theorem World.retains_completeWithin {r : Resolver} (hr : r.Retains) (depth : Nat) (id : SymbolId)
    (w : World) : w.store.Retains (completeWithin r depth id w).2.store := by
  induction depth generalizing id w with
  | zero => exact .refl _
  | succ depth ih =>
    simp only [completeWithin]
    split
    · exact .refl _
    · next c _ =>
      have hdrop : w.store.Retains (w.store.dropCompleter id) := w.store.retains_mapClass id (by simp)
      have hrun := Completer.retains_run hr ih c none id { w with store := w.store.dropCompleter id }
      generalize c.run r (completeWithin r depth) none id
        { w with store := w.store.dropCompleter id } = out at hrun ⊢
      obtain ⟨failure | _, w₁⟩ := out
      · exact (hdrop.trans hrun).trans (w₁.store.retains_mapClass id (by simp))
      · exact hdrop.trans hrun

theorem World.retains_complete {r : Resolver} (hr : r.Retains) (id : SymbolId) (w : World) :
    w.store.Retains (w.complete r id).2.store := retains_completeWithin hr _ id w

/-! ## Acts -/

/-- What can be done with a store and the class path beside it. -/
inductive Act where
  | construct (c : Construct)
  | resetMembers (id : SymbolId)
  | setErrorMembers (id : SymbolId)
  | ensureMembers (id : SymbolId)
  | enterMember (owner member : SymbolId)
  | setCompleter (id : SymbolId) (c : Completer)
  /-- Puts a completer behind the one that is pending. -/
  | fallBack (id : SymbolId) (f : Completer)
  | define (flat : Name) (d : ClassDef)
  | undefine (flat : Name)
  | resolveClass (flat : Name)
  | resolvePackage (full : Name)
  | complete (id : SymbolId)

namespace World

/-- The world with what an operation made of its store; one that fails changes nothing. -/
def attempted (w : World) : Except TableError Store → World
  | .ok store => { w with store }
  | .error _ => w

def act (w : World) : Act → World
  | .construct c => { w with store := w.store.construct c }
  | .resetMembers id => w.attempted (w.store.resetMembers id)
  | .setErrorMembers id => w.attempted (w.store.setErrorMembers id)
  | .ensureMembers id => w.attempted (w.store.ensureMembers id)
  | .enterMember owner member => w.attempted (w.store.enterMember owner member)
  | .setCompleter id c => { w with store := w.store.setCompleter id c }
  | .fallBack id f => { w with store := w.store.fallBack id f }
  | .define flat d => w.define flat d
  | .undefine flat => { w with path := w.path.erase flat }
  | .resolveClass flat => (ClassPath.resolver.askClass flat (w.see flat)).2
  | .resolvePackage full => (ClassPath.resolver.askPackage full (w.see full)).2
  | .complete id => (w.complete ClassPath.resolver id).2

def acts (w : World) (as : List Act) : World := as.foldl act w

theorem retains_attempted {w : World} {e : Except TableError Store}
    (h : ∀ s, e = .ok s → w.store.Retains s) : w.store.Retains (w.attempted e).store := by
  cases e with
  | ok s => exact h s rfl
  | error e => exact .refl _

theorem retains_act (w : World) (a : Act) : w.store.Retains (w.act a).store := by
  cases a with
  | construct c => exact w.store.retains_construct c
  | resetMembers id => exact retains_attempted fun s hs => retains_updateClass (by simp) hs
  | setErrorMembers id => exact retains_attempted fun s hs => retains_updateClass (by simp) hs
  | ensureMembers id => exact retains_attempted fun s hs => retains_updateClass (by simp) hs
  | enterMember owner member => exact retains_attempted fun s hs => retains_enterMember hs
  | setCompleter id c => exact w.store.retains_mapClass id (by simp)
  | fallBack id f => exact w.store.retains_fallBack id f
  | define flat d => exact .refl _
  | undefine flat => exact .refl _
  | resolveClass flat => exact ClassPath.retains_resolver flat { w.see flat with requests := _ }
  | resolvePackage full => exact (entryStable_retains w.store).enterPackage full (.refl _)
  | complete id => exact retains_complete ClassPath.retains_resolver id w

/-- Whatever is done, types and outlines stay. -/
theorem retains_acts (w : World) (as : List Act) : w.store.Retains (w.acts as).store := by
  induction as generalizing w with
  | nil => exact .refl _
  | cons a as ih => exact (w.retains_act a).trans (ih (w.act a))

end World

end SymbolTable
