import Stubgen.Proofs.Namespace.Filling
import Stubgen.Proofs.Namespace.Overriding
import Mathlib.Data.List.Induction

/-!
# The steps in which a namespace is built

The namespace of a module is built in steps of three kinds: a record is taken up, the overrides of a
file are applied, or the constants of the live module are added. A step that fails leaves the
namespace as it was. A step is at most one operation, so whatever holds of the namespaces that
operations make holds of those that steps build; and a property of callables lasts through all steps
if every record gives it to what it defines and neither a link nor a wrapper takes it away.
-/

namespace Stubgen

/-- A property that every callable in a namespace has, whatever steps the namespace is built in. -/
structure Callable.IsLasting (P : Callable → Prop) : Prop where
  /-- The callable that a record defines has the property. -/
  defined : ∀ style record definition contender,
    Definition.ofRecord style record = .ok definition →
      definition.contender? = some contender → P contender.callable
  /-- It does not depend on the comments, to which a link may be added. -/
  commented : ∀ callable comments, P callable → P { callable with comments := comments }
  /-- A wrapper does not take it away. -/
  refined : ∀ (override : Override) callable, P callable → P (override.refine callable)

namespace Namespace

open Defs (Record)

/-- A step in which a namespace is built. -/
inductive BuildStep where
  | define (style : DocStyle) (record : Record)
  | applyOverrides (set : OverrideSet)
  /-- Adds the constants of a live module. -/
  | augment (introspector : Introspector) (module : String)

/-- The namespace after a step; a record or an introspector that fails changes nothing. -/
def build (ns : Namespace) : BuildStep → Namespace
  | .define style record =>
    match ns.define style record with
    | .error _ => ns
    | .ok defined => defined
  | .applyOverrides set => ns.applyOverrides set
  | .augment introspector module => ns.perform (.augment introspector module)

/-- The namespace that is built in a sequence of steps. -/
def ofSteps (steps : List BuildStep) : Namespace :=
  steps.foldl build empty

variable {ns : Namespace} {style : DocStyle} {target : NativeTarget} {callable : Callable}
  {P : Callable → Prop}

/-- The last step is taken in what the steps before it have built. -/
theorem ofSteps_append_singleton (steps : List BuildStep) (step : BuildStep) :
    ofSteps (steps ++ [step]) = (ofSteps steps).build step := by
  rw [ofSteps, List.foldl_append]
  rfl

/-- A record that is taken up is taken up by its definition. -/
theorem define_eq_ok_iff {record : Record} {defined : Namespace} :
    ns.define style record = .ok defined ↔
      ∃ definition, Definition.ofRecord style record = .ok definition ∧
        ns.apply style definition = defined := by
  unfold define
  cases Definition.ofRecord style record with
  | error e => simp
  | ok definition => simp

/-- A step changes nothing or is an operation. -/
theorem exists_perform_eq_build (ns : Namespace) (step : BuildStep) :
    ns.build step = ns ∨ ∃ operation, ns.build step = ns.perform operation := by
  cases step with
  | define style record =>
    simp only [build]
    cases hdefine : ns.define style record with
    | error e => exact .inl rfl
    | ok defined =>
      obtain ⟨definition, hrecord, rfl⟩ := define_eq_ok_iff.mp hdefine
      exact exists_perform_eq_apply style ns (isKinded_of_ofRecord hrecord)
  | applyOverrides set => exact .inr ⟨.applyOverrides set, rfl⟩
  | augment introspector module => exact .inr ⟨.augment introspector module, rfl⟩

/-- What steps build, operations make. -/
theorem exists_ofOperations_eq_ofSteps (steps : List BuildStep) :
    ∃ operations, ofOperations operations = ofSteps steps := by
  induction steps using List.reverseRecOn with
  | nil => exact ⟨[], rfl⟩
  | append_singleton steps step ih =>
    obtain ⟨operations, hoperations⟩ := ih
    rw [ofSteps_append_singleton]
    rcases exists_perform_eq_build (ofSteps steps) step with hsame | ⟨operation, hperform⟩
    · exact ⟨operations, hoperations.trans hsame.symm⟩
    · refine ⟨operations ++ [operation], ?_⟩
      rw [ofOperations_append_singleton, hoperations, hperform]

/-- A namespace that is built in steps has integrity. -/
theorem integrity_ofSteps (steps : List BuildStep) : (ofSteps steps).Integrity := by
  obtain ⟨operations, hoperations⟩ := exists_ofOperations_eq_ofSteps steps
  rw [← hoperations]
  exact integrity_ofOperations operations

/-! ## What every callable has -/

/-- At a place where a definition has arrived is that definition or what was there before. -/
theorem eq_or_eq_of_settle {existing? : Option Callable} {new : Callable}
    (h : settle existing? new = some callable) : new = callable ∨ existing? = some callable := by
  unfold settle at h
  split at h
  · exact .inl (Option.some.inj h)
  · exact .inr h

/-- After a definition, a callable was there before or is the one that is defined, with comments of
its own. -/
theorem at?_apply_cases {definition : Definition}
    (h : (ns.apply style definition).at? target = some callable) :
    ns.at? target = some callable ∨
      ∃ contender comments, definition.contender? = some contender ∧
        callable = { contender.callable with comments := comments } := by
  cases definition with
  | ofClass nativeName classDefinition =>
    exact .inl ((at?_confirmClass ns nativeName classDefinition target).symm.trans h)
  | ofFunction function native? =>
    rw [apply, at?_addFunction] at h
    split at h
    · rcases eq_or_eq_of_settle h with rfl | hthere
      · exact .inr ⟨⟨function, native?⟩, function.comments, rfl, rfl⟩
      · exact .inl hthere
    · exact .inl h
  | ofMethod nativeName method native? =>
    simp only [apply, at?_addMethod] at h
    split at h
    · rcases eq_or_eq_of_settle h with rfl | hthere
      · exact .inr ⟨⟨method, native?⟩, _, rfl, rfl⟩
      · exact .inl hthere
    · exact .inl h
  | ofNothing => exact .inl h

/-- Wrappers leave a lasting property to every callable. -/
theorem holds_of_at?_applyOverrides (hlasting : Callable.IsLasting P)
    (hholds : ∀ target callable, ns.at? target = some callable → P callable) (set : OverrideSet)
    (hthere : (ns.applyOverrides set).at? target = some callable) : P callable := by
  have hfold (overrides : List Override) (old : Callable) (hold : P old) :
      P (overrides.foldl (fun callable override => override.refine callable) old) := by
    induction overrides generalizing old with
    | nil => exact hold
    | cons override rest ih => exact ih _ (hlasting.refined override old hold)
  change (ns.applyWrappers set.wrappers.entries).at? target = some callable at hthere
  rw [at?_applyWrappers, Option.map_eq_some_iff] at hthere
  obtain ⟨old, hold, rfl⟩ := hthere
  rw [← Override.foldl_refine]
  exact hfold _ old (hholds target old hold)

/-- A step leaves a lasting property to every callable. -/
theorem holds_of_at?_build (hlasting : Callable.IsLasting P)
    (hholds : ∀ target callable, ns.at? target = some callable → P callable) (step : BuildStep)
    (hthere : (ns.build step).at? target = some callable) : P callable := by
  cases step with
  | define style record =>
    simp only [build] at hthere
    split at hthere
    · exact hholds target callable hthere
    · next defined hdefine =>
      obtain ⟨definition, hrecord, rfl⟩ := define_eq_ok_iff.mp hdefine
      rcases at?_apply_cases hthere with hold | ⟨contender, comments, hcontender, rfl⟩
      · exact hholds target callable hold
      · have hdefined := hlasting.defined style record definition contender hrecord hcontender
        exact hlasting.commented contender.callable comments hdefined
  | applyOverrides set => exact holds_of_at?_applyOverrides hlasting hholds set hthere
  | augment introspector module =>
    simp only [build, perform, augmentFrom] at hthere
    rcases hexamine : introspector.examine module with e | none | constants
    · rw [hexamine] at hthere
      exact hholds target callable hthere
    · rw [hexamine] at hthere
      exact hholds target callable hthere
    · obtain ⟨lines, hlines⟩ := exists_augment_eq ns constants
      simp only [hexamine, hlines] at hthere
      have hplace : ns.at? target = some callable := by
        cases target <;> exact hthere
      exact hholds target callable hplace

/-- Every callable in a namespace that is built in steps has every lasting property. -/
theorem holds_of_at?_ofSteps (hlasting : Callable.IsLasting P) (steps : List BuildStep)
    (hthere : (ofSteps steps).at? target = some callable) : P callable := by
  induction steps using List.reverseRecOn generalizing target callable with
  | nil =>
    cases target <;> exact nomatch hthere
  | append_singleton steps step ih =>
    rw [ofSteps_append_singleton] at hthere
    exact holds_of_at?_build hlasting (fun _ _ => ih) step hthere

end Namespace

end Stubgen
