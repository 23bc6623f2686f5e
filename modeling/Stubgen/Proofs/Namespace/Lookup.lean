import Stubgen.Proofs.Namespace.Operation

/-!
# Lookups after an operation

An operation changes what is found at one place and leaves every other place alone. This file
says so for the places of callables, for what is known of a class apart from its methods, and
for the native identifiers, so that a run of operations can be followed place by place.
-/

namespace Stubgen.Namespace

/-- The function or method at a place that a native identifier may refer to. -/
def at? (ns : Namespace) : NativeTarget → Option Callable
  | .classNamed _ => none
  | .functionNamed name => ns.functions.get? name
  | .methodOf nativeName name => ns.method? nativeName name

/-- What is known of a class, its methods apart. -/
def outline? (ns : Namespace) (nativeName : String) : Option Class :=
  (ns.class? nativeName).map Class.withoutMethods

/-- What a place holds after a new definition has arrived at it. -/
def settle (existing? : Option Callable) (new : Callable) : Option Callable :=
  if accepts existing? new then some new else existing?

/-- A native identifier reaches what is found at its target. -/
theorem callable?_eq_bind_at? (ns : Namespace) (native : String) :
    ns.callable? native = (ns.natives.get? native).bind ns.at? := by
  unfold callable?
  cases ns.natives.get? native with
  | none => rfl
  | some target => cases target <;> rfl

/-! ## Writing a callable -/

/-- A function that is written is found under its name, and every other callable is as before. -/
theorem at?_writeFunction (ns : Namespace) (name : String) (function : Callable)
    (target : NativeTarget) :
    (ns.writeFunction name function).at? target =
      if target = .functionNamed name then some function else ns.at? target := by
  cases target with
  | classNamed _ => simp [at?]
  | functionNamed other => simp [at?, writeFunction]
  | methodOf _ _ => simp only [reduceCtorEq, if_false]; rfl

/-- A method that is written is found in its class, and every other callable is as before. -/
theorem at?_writeMethod {ns : Namespace} {nativeName : String} {c : Class}
    (hclass : ns.class? nativeName = some c) (name : String) (method : Callable)
    (target : NativeTarget) :
    (ns.writeMethod nativeName c name method).at? target =
      if target = .methodOf nativeName name then some method else ns.at? target := by
  cases target with
  | classNamed _ => simp [at?]
  | functionNamed _ => simp only [reduceCtorEq, if_false]; rfl
  | methodOf other otherName =>
    simp only [at?, method?_writeMethod hclass, NativeTarget.methodOf.injEq]

/-! ## Registering an identifier -/

/-- The registered identifier has the new target, and every other one has its old target. -/
theorem get?_natives_register (ns : Namespace) (native? : Option String) (target : NativeTarget)
    (native : String) :
    (ns.register native? target).natives.get? native =
      if native? = some native then some target else ns.natives.get? native := by
  cases native? with
  | none => simp [register]
  | some other => simp only [register, Table.get?_insert, Option.some.injEq, eq_comm]

/-- Registering an identifier moves no callable. -/
@[simp] theorem at?_register (ns : Namespace) (native? : Option String) (target : NativeTarget) :
    (ns.register native? target).at? = ns.at? := by
  cases native? <;> rfl

/-- Registering an identifier changes no class. -/
@[simp] theorem outline?_register (ns : Namespace) (native? : Option String)
    (target : NativeTarget) : (ns.register native? target).outline? = ns.outline? := by
  cases native? <;> rfl

/-- Registering an identifier changes no constant. -/
@[simp] theorem constants_register (ns : Namespace) (native? : Option String)
    (target : NativeTarget) : (ns.register native? target).constants = ns.constants := by
  cases native? <;> rfl

/-! ## Taking up the definition of a class -/

/-- A class that is written with the methods that were known moves no callable. -/
theorem at?_putClass {ns : Namespace} {nativeName : String} {c : Class}
    (hmethods : c.methods = (ns.classOrAssumed nativeName).methods) (target : NativeTarget) :
    (ns.putClass nativeName c).at? target = ns.at? target := by
  cases target with
  | classNamed _ => rfl
  | functionNamed _ => rfl
  | methodOf other name => exact method?_putClass hmethods other name

/-- The definition of a class moves no callable. -/
@[simp] theorem at?_confirmClass (ns : Namespace) (nativeName : String)
    (definition : ClassDefinition) (target : NativeTarget) :
    (ns.confirmClass nativeName definition).at? target = ns.at? target := by
  refine at?_putClass ?_ target
  rfl

/-- After the definition of a class, the class is known by it. -/
theorem outline?_confirmClass (ns : Namespace) (nativeName other : String)
    (definition : ClassDefinition) :
    (ns.confirmClass nativeName definition).outline? other =
      if other = nativeName then
        some ((ns.classOrAssumed nativeName).withoutMethods.confirm definition)
      else ns.outline? other := by
  simp only [outline?, confirmClass, class?_putClass]
  split <;> rfl

/-- After the definition of a class, its native name refers to it. -/
theorem get?_natives_confirmClass (ns : Namespace) (nativeName native : String)
    (definition : ClassDefinition) :
    (ns.confirmClass nativeName definition).natives.get? native =
      if native = nativeName then some (.classNamed nativeName) else ns.natives.get? native := by
  simp [confirmClass, putClass]

/-! ## Making sure of a class -/

/-- Making sure of a class moves no callable. -/
@[simp] theorem at?_ensureClass (ns : Namespace) (nativeName : String) (target : NativeTarget) :
    (ns.ensureClass nativeName).at? target = ns.at? target := by
  unfold ensureClass
  cases hclass : ns.class? nativeName with
  | some c => rfl
  | none => exact at?_putClass (by simp [classOrAssumed, hclass]) target

/-- After making sure of a class, it is known, and every other class is as before. -/
theorem outline?_ensureClass (ns : Namespace) (nativeName other : String) :
    (ns.ensureClass nativeName).outline? other =
      if other = nativeName then some (ns.classOrAssumed nativeName).withoutMethods
      else ns.outline? other := by
  unfold outline?
  split
  · next heq => rw [heq, class?_ensureClass, Option.map_some]
  · next hne =>
    unfold ensureClass
    cases ns.class? nativeName with
    | some c => rfl
    | none => simp [hne]

/-- A class that is made registers its native name; one that was there changes nothing. -/
theorem get?_natives_ensureClass (ns : Namespace) (nativeName native : String) :
    (ns.ensureClass nativeName).natives.get? native =
      if native = nativeName ∧ ns.class? nativeName = none then some (.classNamed nativeName)
      else ns.natives.get? native := by
  unfold ensureClass
  cases ns.class? nativeName with
  | some c => simp
  | none => simp [putClass]

/-- Making sure of a class changes no constant. -/
@[simp] theorem constants_ensureClass (ns : Namespace) (nativeName : String) :
    (ns.ensureClass nativeName).constants = ns.constants := by
  unfold ensureClass
  cases ns.class? nativeName <;> rfl

/-! ## Taking up a function -/

/-- A function arrives at the place of its name. -/
theorem at?_addFunction (ns : Namespace) (function : Callable) (native? : Option String)
    (target : NativeTarget) :
    (ns.addFunction function native?).at? target =
      if target = .functionNamed function.name then settle (ns.at? target) function
      else ns.at? target := by
  cases haccepts : ns.acceptsFunction function with
  | false =>
    rw [addFunction_of_refuses haccepts]
    split
    · next heq =>
      subst heq
      exact (if_neg (Bool.eq_false_iff.mp haccepts)).symm
    · rfl
  | true =>
    rw [addFunction_of_accepts haccepts, at?_register, at?_writeFunction]
    split
    · next heq =>
      subst heq
      exact (if_pos haccepts).symm
    · rfl

/-- Taking up a function changes no class. -/
@[simp] theorem outline?_addFunction (ns : Namespace) (function : Callable)
    (native? : Option String) :
    (ns.addFunction function native?).outline? = ns.outline? := by
  cases haccepts : ns.acceptsFunction function with
  | false => rw [addFunction_of_refuses haccepts]
  | true => rw [addFunction_of_accepts haccepts, outline?_register]; rfl

/-- Taking up a function changes no constant. -/
@[simp] theorem constants_addFunction (ns : Namespace) (function : Callable)
    (native? : Option String) :
    (ns.addFunction function native?).constants = ns.constants := by
  cases haccepts : ns.acceptsFunction function with
  | false => rw [addFunction_of_refuses haccepts]
  | true => rw [addFunction_of_accepts haccepts, constants_register]; rfl

/-- Only a function that is taken up registers its identifier. -/
theorem get?_natives_addFunction (ns : Namespace) (function : Callable) (native? : Option String)
    (native : String) :
    (ns.addFunction function native?).natives.get? native =
      if native? = some native ∧ ns.acceptsFunction function = true then
        some (.functionNamed function.name)
      else ns.natives.get? native := by
  cases haccepts : ns.acceptsFunction function with
  | false => simp [addFunction_of_refuses haccepts]
  | true => simp [addFunction_of_accepts haccepts, get?_natives_register, writeFunction]

/-! ## Taking up a method -/

/-- A method arrives at the place of its class and its name. -/
theorem at?_addMethod (ns : Namespace) (nativeName : String) (method : Callable)
    (native? : Option String) (target : NativeTarget) :
    (ns.addMethod nativeName method native?).at? target =
      if target = .methodOf nativeName method.name then settle (ns.at? target) method
      else ns.at? target := by
  cases haccepts : ns.acceptsMethod nativeName method with
  | false =>
    rw [addMethod_of_refuses haccepts]
    split
    · next heq =>
      subst heq
      exact (if_neg (Bool.eq_false_iff.mp haccepts)).symm
    · rfl
  | true =>
    rw [addMethod_of_accepts haccepts, at?_register,
      at?_writeMethod (class?_ensureClass ns nativeName)]
    split
    · next heq =>
      subst heq
      exact (if_pos haccepts).symm
    · exact at?_ensureClass ns nativeName target

/-- After a method has arrived, its class is known, and every other class is as before. -/
theorem outline?_addMethod (ns : Namespace) (nativeName other : String) (method : Callable)
    (native? : Option String) :
    (ns.addMethod nativeName method native?).outline? other =
      if other = nativeName then some (ns.classOrAssumed nativeName).withoutMethods
      else ns.outline? other := by
  rw [← outline?_ensureClass]
  cases haccepts : ns.acceptsMethod nativeName method with
  | false =>
    rw [addMethod_of_refuses haccepts, ensureClass_of_refuses haccepts]
  | true =>
    rw [addMethod_of_accepts haccepts, outline?_register]
    simp only [outline?, class?_writeMethod]
    split
    · next heq =>
      rw [heq, class?_ensureClass]
      rfl
    · rfl

/-- Taking up a method changes no constant. -/
@[simp] theorem constants_addMethod (ns : Namespace) (nativeName : String) (method : Callable)
    (native? : Option String) :
    (ns.addMethod nativeName method native?).constants = ns.constants := by
  cases haccepts : ns.acceptsMethod nativeName method with
  | false => rw [addMethod_of_refuses haccepts]
  | true =>
    rw [addMethod_of_accepts haccepts, constants_register]
    exact constants_ensureClass ns nativeName

/-- A method that is taken up registers its identifier, and the class that is made for it
registers its native name. -/
theorem get?_natives_addMethod (ns : Namespace) (nativeName : String) (method : Callable)
    (native? : Option String) (native : String) :
    (ns.addMethod nativeName method native?).natives.get? native =
      if native? = some native ∧ ns.acceptsMethod nativeName method = true then
        some (.methodOf nativeName method.name)
      else if native = nativeName ∧ ns.class? nativeName = none then
        some (.classNamed nativeName)
      else ns.natives.get? native := by
  rw [← get?_natives_ensureClass]
  cases haccepts : ns.acceptsMethod nativeName method with
  | false => simp [addMethod_of_refuses haccepts, ensureClass_of_refuses haccepts]
  | true => simp [addMethod_of_accepts haccepts, get?_natives_register, writeMethod]

/-! ## Revising a callable -/

/-- A revision moves no identifier. -/
@[simp] theorem natives_reviseCallable (ns : Namespace) (native : String)
    (revise : Callable → Callable) : (ns.reviseCallable native revise).natives = ns.natives := by
  unfold reviseCallable
  split
  · rfl
  · rfl
  · split <;> rfl
  · split
    · rfl
    · split <;> rfl

/-- A revision revises what its identifier refers to and nothing else. -/
theorem at?_reviseCallable (ns : Namespace) (native : String) (revise : Callable → Callable)
    (target : NativeTarget) :
    (ns.reviseCallable native revise).at? target =
      if ns.natives.get? native = some target then (ns.at? target).map revise
      else ns.at? target := by
  -- Where there is nothing to revise, both sides are `none`.
  have hnothing {referred : NativeTarget} (hnone : ns.at? referred = none) :
      ns.at? target =
        if some referred = some target then (ns.at? target).map revise else ns.at? target := by
    split
    · next heq =>
      obtain rfl := Option.some.inj heq
      rw [hnone, Option.map_none]
    · rfl
  unfold reviseCallable
  split
  · next hnative => simp [hnative]
  · next hnative =>
    rw [hnative]
    exact hnothing rfl
  · next name hnative =>
    rw [hnative]
    split
    · next hnone => exact hnothing hnone
    · next function hfunction =>
      refine (at?_writeFunction ns name (revise function) target).trans ?_
      simp only [Option.some.injEq, eq_comm]
      split
      · next heq => simp [heq, at?, hfunction]
      · rfl
  · next nativeName name hnative =>
    rw [hnative]
    split
    · next hnone => exact hnothing (by simp [at?, method?, hnone])
    · next c hclass =>
      split
      · next hnone => exact hnothing (by simp [at?, method?, hclass, hnone])
      · next method hmethod =>
        refine (at?_writeMethod hclass name (revise method) target).trans ?_
        simp only [Option.some.injEq, eq_comm]
        split
        · next heq => simp [heq, at?, method?, hclass, hmethod]
        · rfl

/-- A revision changes nothing that is known of a class apart from its methods. -/
@[simp] theorem outline?_reviseCallable (ns : Namespace) (native : String)
    (revise : Callable → Callable) : (ns.reviseCallable native revise).outline? = ns.outline? := by
  unfold reviseCallable
  split
  · rfl
  · rfl
  · split <;> rfl
  · next nativeName name _ =>
    split
    · rfl
    · next c hclass =>
      split
      · rfl
      · funext other
        simp only [outline?, class?, Table.get?_insert] at hclass ⊢
        split
        · next heq =>
          rw [heq, hclass]
          rfl
        · rfl

/-- A revision changes no constant. -/
@[simp] theorem constants_reviseCallable (ns : Namespace) (native : String)
    (revise : Callable → Callable) :
    (ns.reviseCallable native revise).constants = ns.constants := by
  unfold reviseCallable
  split
  · rfl
  · rfl
  · split <;> rfl
  · split
    · rfl
    · split <;> rfl

/-- After a revision an identifier reaches a callable exactly if it did before. -/
theorem isSome_callable?_reviseCallable (ns : Namespace) (native : String)
    (revise : Callable → Callable) (other : String) :
    ((ns.reviseCallable native revise).callable? other).isSome = (ns.callable? other).isSome := by
  simp only [callable?_eq_bind_at?, natives_reviseCallable]
  cases ns.natives.get? other with
  | none => rfl
  | some target =>
    simp only [Option.bind_some, at?_reviseCallable]
    split
    · exact Option.isSome_map
    · rfl

/-! ## Taking up the constants of a live module -/

/-- The constants of a live module change nothing but constants. -/
theorem exists_augment_eq (ns : Namespace) (constants : List (String × Constant)) :
    ∃ lines, ns.augment constants = { ns with constants := lines } := by
  suffices hfold : ∀ (missing : List (String × Constant)) (lines : Table String),
      ∃ lines', missing.foldl
        (fun extended entry =>
          extended.addConstant entry.1 (entry.2.line ns.hasDisplayName entry.1))
        { ns with constants := lines } = { ns with constants := lines' } from
    hfold (ns.missingConstants constants) ns.constants
  intro missing
  induction missing with
  | nil => exact fun lines => ⟨lines, rfl⟩
  | cons entry rest ih => exact fun lines => ih _

/-! ## Namespaces in which every lookup is the same -/

/-- Namespaces are equal if every place, everything else that is known of classes, the constants
and the identifiers are. -/
theorem ext_at? {a b : Namespace} (hplaces : ∀ target, a.at? target = b.at? target)
    (houtline : ∀ nativeName, a.outline? nativeName = b.outline? nativeName)
    (hconstants : a.constants = b.constants) (hnatives : a.natives = b.natives) : a = b := by
  have hfunctions : a.functions = b.functions :=
    Table.ext_get? fun name => hplaces (.functionNamed name)
  have hclasses : a.classes = b.classes := by
    refine Table.ext_get? fun nativeName => ?_
    have hmethods (name : String) := hplaces (.methodOf nativeName name)
    have hknown := houtline nativeName
    simp only [at?, method?, outline?, class?] at hmethods hknown ⊢
    cases ha : a.classes.get? nativeName with
    | none =>
      cases hb : b.classes.get? nativeName with
      | none => rfl
      | some c => simp [ha, hb] at hknown
    | some c =>
      cases hb : b.classes.get? nativeName with
      | none => simp [ha, hb] at hknown
      | some other =>
        have htables : c.methods = other.methods :=
          Table.ext_get? fun name => by simpa [ha, hb] using hmethods name
        have hbare : c.withoutMethods = other.withoutMethods := by simpa [ha, hb] using hknown
        obtain ⟨_, _, methods, _⟩ := c
        obtain ⟨_, _, otherMethods, _⟩ := other
        simp only [Class.withoutMethods, Class.mk.injEq, true_and] at hbare
        obtain ⟨rfl, rfl, rfl⟩ := hbare
        obtain rfl : methods = otherMethods := htables
        rfl
  cases a
  cases b
  subst hfunctions hclasses hconstants hnatives
  rfl

end Stubgen.Namespace
