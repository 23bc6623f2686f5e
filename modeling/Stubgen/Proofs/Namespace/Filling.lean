import Stubgen.Proofs.Namespace.Integrity
import Stubgen.Proofs.Namespace.Lookup
import Stubgen.Proofs.Namespace.Succession
import Stubgen.Namespace.Definition
import Mathlib.Data.Option.Basic
import Mathlib.Data.List.Induction

/-!
# Filling a namespace

Records are taken up one after the other, and one place of the namespace can be followed at a
time: what a place holds depends only on the definitions that arrive at it, and what is known of
a class only on the definitions that name it. The one thing that a definition reads elsewhere is
the module of its class, which shows in the link of a method.
-/

namespace Stubgen

namespace Definition

open Defs (Record)

/-- The place of the callable that a definition defines. -/
def target? : Definition → Option NativeTarget
  | .ofFunction function _ => some (.functionNamed function.name)
  | .ofMethod nativeName method _ => some (.methodOf nativeName method.name)
  | .ofClass .. | .ofNothing => none

/-- The callable that a definition defines, with the native identifier that it brings. -/
def contender? : Definition → Option Contender
  | .ofFunction function native? => some ⟨function, native?⟩
  | .ofMethod _ method native? => some ⟨method, native?⟩
  | .ofClass .. | .ofNothing => none

/-- The native identifier that a definition of a callable brings. -/
def native? (definition : Definition) : Option String :=
  definition.contender?.bind Contender.native?

/-- The native name of the class that a definition defines or that owns what it defines. -/
def className? : Definition → Option String
  | .ofClass nativeName _ | .ofMethod nativeName _ _ => some nativeName
  | .ofFunction .. | .ofNothing => none

/-- What a definition says about the class with a native name. -/
def classDefinition? (nativeName : String) : Definition → Option ClassDefinition
  | .ofClass other definition => if other = nativeName then some definition else none
  | .ofFunction .. | .ofMethod .. | .ofNothing => none

/-- What a definition brings to a place. -/
def contenderAt? (target : NativeTarget) (definition : Definition) : Option Contender :=
  if definition.target? = some target then definition.contender? else none

/-- What definitions bring to a place, in their order. -/
def contenders (target : NativeTarget) (definitions : List Definition) : List Contender :=
  definitions.filterMap (contenderAt? target)

/-- The native identifiers that a definition names, with what they are to refer to. -/
def names : Definition → List (String × NativeTarget)
  | .ofClass nativeName _ => [(nativeName, .classNamed nativeName)]
  | .ofFunction function native? =>
    native?.toList.map fun native => (native, .functionNamed function.name)
  | .ofMethod nativeName method native? =>
    (nativeName, .classNamed nativeName) ::
      native?.toList.map fun native => (native, .methodOf nativeName method.name)
  | .ofNothing => []

/-- The definitions of records; a record that fails defines nothing. -/
def ofRecords (style : DocStyle) (records : List Record) : List Definition :=
  records.filterMap fun record => (ofRecord style record).toOption

/-- Functions have no receiver, and methods have one. -/
def IsKinded : Definition → Prop
  | .ofFunction function _ => function.isMethod = false
  | .ofMethod _ method _ => method.isMethod = true
  | .ofClass .. | .ofNothing => True

/-- What is known of a class, its methods apart, after a definition. -/
def outline (nativeName : String) (known? : Option Class) : Definition → Option Class
  | .ofClass other definition =>
    if nativeName = other then some ((known?.getD (.provisional nativeName)).confirm definition)
    else known?
  | .ofMethod other _ _ =>
    if nativeName = other then some (known?.getD (.provisional nativeName)) else known?
  | .ofFunction .. | .ofNothing => known?

/-- The ways in which a record defines something. -/
inductive ToldBy (style : DocStyle) (record : Record) : Definition → Prop where
  | aClass (nativeName : String) :
    ToldBy style record (.ofClass nativeName (classOf style record nativeName))
  | aConstructor (nativeName : String) (native? : Option String) :
    ToldBy style record (.ofMethod nativeName (constructorOf record nativeName) native?)
  | aMethod (nativeName returns : String) (native? : Option String) :
    ToldBy style record
      (.ofMethod nativeName (callableOf record record.name true returns) native?)
  | aFunction (returns : String) (native? : Option String) :
    ToldBy style record (.ofFunction (callableOf record record.name false returns) native?)
  | nothing : ToldBy style record .ofNothing

/-- A record that does not fail defines something in one of the ways there are. -/
theorem toldBy_of_ofRecord {style : DocStyle} {record : Record} {definition : Definition}
    (h : ofRecord style record = .ok definition) : ToldBy style record definition := by
  have hcallable {isMethod : Bool} (h : callableOfRecord record isMethod = .ok definition) :
      ToldBy style record definition := by
    unfold callableOfRecord at h
    split at h
    · obtain rfl := Except.ok.inj h
      exact .aConstructor _ _
    · split at h
      · split at h
        · obtain rfl := Except.ok.inj h
          exact .aMethod _ _ _
        · exact nomatch h
      · obtain rfl := Except.ok.inj h
        exact .aFunction _ _
  unfold ofRecord at h
  split at h
  · exact hcallable h
  · exact hcallable h
  · obtain rfl := Except.ok.inj h
    exact .nothing
  · split at h
    · obtain rfl := Except.ok.inj h
      exact .aClass _
    · exact nomatch h

/-- A constructor is a method. -/
@[simp] theorem isMethod_constructorOf (record : Record) (nativeName : String) :
    (constructorOf record nativeName).isMethod = true := by
  unfold constructorOf
  split <;> rfl

/-- A definition brings its callable to the place of that callable. -/
theorem contenderAt?_eq_some_iff {target : NativeTarget} {definition : Definition}
    {contender : Contender} : definition.contenderAt? target = some contender ↔
      definition.target? = some target ∧ definition.contender? = some contender := by
  unfold contenderAt?
  split
  · next htarget => simp [htarget]
  · next htarget => simp [htarget]

/-- A definition that brings a native identifier brings a callable to some place. -/
theorem exists_contenderAt? {definition : Definition} {native : String}
    (h : definition.native? = some native) :
    ∃ target contender, definition.contenderAt? target = some contender := by
  simp only [contenderAt?_eq_some_iff]
  cases definition with
  | ofFunction function native? => exact ⟨_, _, rfl, rfl⟩
  | ofMethod nativeName method native? => exact ⟨_, _, rfl, rfl⟩
  | ofClass _ _ => exact nomatch h
  | ofNothing => exact nomatch h

/-- A definition names its class, and the target of the identifier that it brings. -/
theorem mem_names_iff {definition : Definition} {native : String} {target : NativeTarget} :
    (native, target) ∈ definition.names ↔
      definition.className? = some native ∧ target = .classNamed native ∨
        definition.native? = some native ∧ definition.target? = some target := by
  cases definition with
  | ofClass nativeName classDefinition =>
    simp only [names, List.mem_singleton, Prod.mk.injEq, className?, Option.some.injEq, native?,
      contender?, Option.bind_none, reduceCtorEq, false_and, or_false]
    exact ⟨fun h => ⟨h.1.symm, h.1 ▸ h.2⟩, fun h => ⟨h.1.symm, h.1 ▸ h.2⟩⟩
  | ofFunction function native? =>
    simp [names, className?, Definition.native?, contender?, target?, eq_comm]
  | ofMethod nativeName method native? =>
    simp only [names, List.mem_cons, Prod.mk.injEq, List.mem_map, Option.mem_toList, className?,
      Option.some.injEq, Definition.native?, contender?, Option.bind_some, target?]
    refine or_congr ⟨fun h => ⟨h.1.symm, h.1 ▸ h.2⟩, fun h => ⟨h.1.symm, h.1 ▸ h.2⟩⟩ ?_
    constructor
    · rintro ⟨brought, hbrought, rfl, rfl⟩
      exact ⟨hbrought, rfl⟩
    · rintro ⟨hbrought, rfl⟩
      exact ⟨native, hbrought, rfl, rfl⟩
  | ofNothing => simp [names, className?, native?, contender?]

end Definition

namespace Namespace

open Defs (Record)

/-- Takes up definitions one after the other. -/
def takeUp (style : DocStyle) (ns : Namespace) (definitions : List Definition) : Namespace :=
  definitions.foldl (apply style) ns

/-- Whether the place of a definition gives way to it. -/
def acceptsDefinition (ns : Namespace) : Definition → Bool
  | .ofFunction function _ => ns.acceptsFunction function
  | .ofMethod nativeName method _ => ns.acceptsMethod nativeName method
  | .ofClass .. | .ofNothing => false

/-- A method with its link, which leads to a page in the given module. -/
def linked (style : DocStyle) (module? : Option String) (nativeName : String)
    (method : Callable) (native? : Option String) : Callable :=
  { method with
    comments := method.comments ++ (methodLink? style module? nativeName method native?).toList }

/-- How a definition is stored at its place: a function as it is, a method with a link in
whatever module its class had when it arrived. -/
def Stored (style : DocStyle) (target : NativeTarget) (contender : Contender)
    (callable : Callable) : Prop :=
  match target with
  | .methodOf nativeName _ => ∃ module?,
    callable = linked style module? nativeName contender.callable contender.native?
  | .functionNamed _ | .classNamed _ => callable = contender.callable

/-- A place holds the definition of a contender, or nothing if there is none. -/
def HeldBy (style : DocStyle) (ns : Namespace) (target : NativeTarget)
    (holder? : Option Contender) : Prop :=
  Option.Rel (Stored style target) holder? (ns.at? target)

variable {style : DocStyle} {ns : Namespace} {target : NativeTarget}
  {holder? : Option Contender}

/-! ## Records and their definitions -/

/-- Records are taken up without an error exactly if each of them defines something or
nothing, and then their definitions are. -/
theorem defineAll_eq (style : DocStyle) (ns : Namespace) (records : List Record) :
    ((ns.defineAll style records).error? = none ↔
      ∀ record ∈ records, ∃ definition, Definition.ofRecord style record = .ok definition) ∧
    ((ns.defineAll style records).error? = none →
      (ns.defineAll style records).reached =
        ns.takeUp style (Definition.ofRecords style records)) := by
  induction records generalizing ns with
  | nil => simp [defineAll, takeUp, Definition.ofRecords]
  | cons record rest ih =>
    cases hrecord : Definition.ofRecord style record with
    | error e => simp [defineAll, define, hrecord]
    | ok definition =>
      have hdefinitions : Definition.ofRecords style (record :: rest) =
          definition :: Definition.ofRecords style rest := by
        simp [Definition.ofRecords, hrecord, Except.toOption]
      obtain ⟨hfails, hreached⟩ := ih (ns.apply style definition)
      simp only [defineAll, define, hrecord, hdefinitions]
      refine ⟨hfails.trans ?_, hreached⟩
      simp [hrecord]

/-- A record defines callables of their kind. -/
theorem isKinded_of_ofRecord {record : Record} {definition : Definition}
    (h : Definition.ofRecord style record = .ok definition) : definition.IsKinded := by
  cases Definition.toldBy_of_ofRecord h with
  | aClass nativeName => trivial
  | aConstructor nativeName native? => exact Definition.isMethod_constructorOf record nativeName
  | aMethod nativeName returns native? => rfl
  | aFunction returns native? => rfl
  | nothing => trivial

/-- Records define callables of their kind. -/
theorem isKinded_of_mem_ofRecords {records : List Record} {definition : Definition}
    (h : definition ∈ Definition.ofRecords style records) : definition.IsKinded := by
  obtain ⟨record, _, hrecord⟩ := List.mem_filterMap.mp h
  cases hdefines : Definition.ofRecord style record with
  | error e => simp [hdefines, Except.toOption] at hrecord
  | ok defined =>
    obtain rfl : defined = definition := by simpa [hdefines, Except.toOption] using hrecord
    exact isKinded_of_ofRecord hdefines

/-- Taking up a definition is one of the operations on a namespace. -/
theorem exists_perform_eq_apply (style : DocStyle) (ns : Namespace) {definition : Definition}
    (hkinded : definition.IsKinded) : ns.apply style definition = ns ∨
      ∃ operation, ns.apply style definition = ns.perform operation := by
  cases definition with
  | ofClass nativeName classDefinition =>
    exact .inr ⟨.confirmClass nativeName classDefinition, rfl⟩
  | ofFunction function native? => exact .inr ⟨.addFunction function hkinded native?, rfl⟩
  | ofMethod nativeName method native? =>
    exact .inr ⟨.addMethod nativeName
      (linked style (ns.classOrAssumed nativeName).definition.module? nativeName method native?)
      hkinded native?, rfl⟩
  | ofNothing => exact .inl rfl

/-- Taking up a definition keeps the integrity of a namespace. -/
theorem Integrity.apply (h : ns.Integrity) {definition : Definition}
    (hkinded : definition.IsKinded) : (ns.apply style definition).Integrity := by
  rcases exists_perform_eq_apply style ns hkinded with hsame | ⟨operation, hperform⟩
  · rwa [hsame]
  · rw [hperform]
    exact (writes_perform h operation).integrity h

/-- Taking up definitions keeps the integrity of a namespace. -/
theorem Integrity.takeUp (h : ns.Integrity) {definitions : List Definition}
    (hkinded : ∀ definition ∈ definitions, definition.IsKinded) :
    (ns.takeUp style definitions).Integrity := by
  induction definitions generalizing ns with
  | nil => exact h
  | cons definition rest ih =>
    exact ih (h.apply (hkinded definition List.mem_cons_self))
      fun other hother => hkinded other (List.mem_cons_of_mem _ hother)

/-- Definitions touch no constant. -/
theorem constants_takeUp (style : DocStyle) (ns : Namespace) (definitions : List Definition) :
    (ns.takeUp style definitions).constants = ns.constants := by
  induction definitions generalizing ns with
  | nil => rfl
  | cons definition rest ih =>
    refine (ih _).trans ?_
    cases definition with
    | ofClass _ _ => rfl
    | ofFunction function native? => exact constants_addFunction ns function native?
    | ofMethod nativeName _ native? => exact constants_addMethod ns nativeName _ native?
    | ofNothing => rfl

/-! ## What is known of a class -/

/-- What is known of a class after a definition follows from what was known of it. -/
theorem outline?_apply (style : DocStyle) (ns : Namespace) (definition : Definition)
    (nativeName : String) :
    (ns.apply style definition).outline? nativeName =
      definition.outline nativeName (ns.outline? nativeName) := by
  have hassumed : (ns.classOrAssumed nativeName).withoutMethods =
      (ns.outline? nativeName).getD (.provisional nativeName) := by
    unfold classOrAssumed outline?
    cases ns.class? nativeName <;> rfl
  cases definition with
  | ofClass other classDefinition =>
    simp only [apply, outline?_confirmClass, Definition.outline]
    split
    · next heq => rw [← heq, hassumed]
    · rfl
  | ofFunction function native? => simp only [apply, outline?_addFunction, Definition.outline]
  | ofMethod other method native? =>
    simp only [apply, outline?_addMethod, Definition.outline]
    split
    · next heq => rw [← heq, hassumed]
    · rfl
  | ofNothing => rfl

/-- What is known of a class after definitions is its last definition; if there is none, it is
provisional as soon as one of its methods is defined. -/
theorem outline?_takeUp (style : DocStyle) (ns : Namespace) (definitions : List Definition)
    (nativeName : String) :
    (ns.takeUp style definitions).outline? nativeName =
      match (definitions.filterMap (Definition.classDefinition? nativeName)).getLast? with
      | some classDefinition =>
        some (((ns.outline? nativeName).getD (.provisional nativeName)).confirm classDefinition)
      | none =>
        if nativeName ∈ definitions.filterMap Definition.className? then
          some ((ns.outline? nativeName).getD (.provisional nativeName))
        else ns.outline? nativeName := by
  induction definitions using List.reverseRecOn with
  | nil => simp [takeUp]
  | append_singleton definitions definition ih =>
    have hstep : (ns.takeUp style (definitions ++ [definition])).outline? nativeName =
        definition.outline nativeName ((ns.takeUp style definitions).outline? nativeName) := by
      rw [takeUp, List.foldl_append]
      exact outline?_apply style _ definition nativeName
    rw [hstep, ih]
    simp only [List.filterMap_append, List.getLast?_append, List.mem_append]
    cases definition with
    | ofClass other classDefinition =>
      by_cases heq : nativeName = other
      · subst heq
        simp only [Definition.outline, Definition.classDefinition?, List.filterMap_cons,
          if_true, List.filterMap_nil, List.getLast?_singleton, Option.some_or]
        split
        · rfl
        · split <;> rfl
      · simp [Definition.outline, Definition.classDefinition?, Definition.className?, heq,
          Ne.symm heq]
    | ofFunction function native? =>
      simp [Definition.outline, Definition.classDefinition?, Definition.className?]
    | ofMethod other method native? =>
      by_cases heq : nativeName = other
      · subst heq
        simp only [Definition.outline, Definition.classDefinition?, Definition.className?,
          List.filterMap_cons, List.filterMap_nil, List.getLast?_nil, Option.none_or, if_true,
          List.mem_singleton, or_true]
        split
        · rfl
        · split <;> rfl
      · simp [Definition.outline, Definition.classDefinition?, Definition.className?, heq]
    | ofNothing => simp [Definition.outline, Definition.classDefinition?, Definition.className?]

/-! ## Who holds a place -/

/-- No place of the empty namespace is held. -/
theorem heldBy_empty (style : DocStyle) (target : NativeTarget) :
    empty.HeldBy style target none := by
  unfold HeldBy
  cases target <;> exact .none

/-- A stored definition has the parameters that it was defined with. -/
theorem Stored.parameters_eq {contender : Contender} {callable : Callable}
    (h : Stored style target contender callable) :
    callable.parameters = contender.callable.parameters := by
  cases target with
  | methodOf nativeName name =>
    obtain ⟨module?, rfl⟩ := h
    rfl
  | functionNamed name =>
    obtain rfl : callable = contender.callable := h
    rfl
  | classNamed nativeName =>
    obtain rfl : callable = contender.callable := h
    rfl

/-- A place gives way to a definition exactly if its holder does. -/
theorem HeldBy.accepts_eq (h : ns.HeldBy style target holder?) (new : Contender) :
    accepts (ns.at? target) new.callable = Contender.yields holder? new := by
  unfold HeldBy at h
  generalize ns.at? target = existing? at h ⊢
  cases h with
  | none => rfl
  | some hstored =>
    simp only [accepts, Contender.yields, Option.map_some, Callable.yieldsTo,
      hstored.parameters_eq]

/-- A contender arrives at a place in the form in which it is stored there. -/
theorem HeldBy.settle (h : ns.HeldBy style target holder?) (new : Contender)
    {callable : Callable} (hstored : Stored style target new callable)
    (hexplicit : callable.explicit = new.callable.explicit) :
    Option.Rel (Stored style target) (Contender.succeed holder? new)
      (settle (ns.at? target) callable) := by
  have haccepts : accepts (ns.at? target) callable = Contender.yields holder? new := by
    rw [← h.accepts_eq new]
    unfold accepts
    split
    · rfl
    · rw [Callable.yieldsTo, hexplicit, Callable.yieldsTo]
  unfold Namespace.settle Contender.succeed
  rw [haccepts]
  split
  · exact .some hstored
  · exact h

/-- After a definition, every place is held by whoever is left of its holder and the
contender. -/
theorem HeldBy.apply (h : ns.HeldBy style target holder?) (definition : Definition) :
    (ns.apply style definition).HeldBy style target
      (Contender.lastHolder holder? (definition.contenderAt? target).toList) := by
  unfold HeldBy
  cases definition with
  | ofClass nativeName classDefinition =>
    simp only [Namespace.apply, at?_confirmClass]
    exact h
  | ofFunction function native? =>
    simp only [Namespace.apply, at?_addFunction, Definition.contenderAt?, Definition.target?,
      Definition.contender?, Option.some.injEq, eq_comm]
    split
    · next heq =>
      subst heq
      exact h.settle ⟨function, native?⟩ rfl rfl
    · exact h
  | ofMethod nativeName method native? =>
    simp only [Namespace.apply, at?_addMethod, Definition.contenderAt?, Definition.target?,
      Definition.contender?, Option.some.injEq, eq_comm]
    split
    · next heq =>
      subst heq
      exact h.settle ⟨method, native?⟩ ⟨_, rfl⟩ rfl
    · exact h
  | ofNothing => exact h

/-- After definitions, every place is held by the last holder among their contenders. -/
theorem HeldBy.takeUp (h : ns.HeldBy style target holder?) (definitions : List Definition) :
    (ns.takeUp style definitions).HeldBy style target
      (Contender.lastHolder holder? (Definition.contenders target definitions)) := by
  induction definitions generalizing ns holder? with
  | nil => exact h
  | cons definition rest ih =>
    have hrest := ih (h.apply definition)
    have hcontenders : Definition.contenders target (definition :: rest) =
        (definition.contenderAt? target).toList ++ Definition.contenders target rest := by
      unfold Definition.contenders
      cases hcontender : definition.contenderAt? target with
      | none => rw [List.filterMap_cons_none hcontender]; rfl
      | some contender => rw [List.filterMap_cons_some hcontender]; rfl
    rw [hcontenders, Contender.lastHolder, List.foldl_append]
    exact hrest

end Namespace

end Stubgen
