import Stubgen.Constant.Augmentation
import Stubgen.Override.Application

/-!
# Operations on a namespace

A namespace is filled by eight operations. Whatever one of them does is a sequence of writes
of five kinds: a class, a function, a method of a class that is there, a native identifier
whose target is there, and the line of a constant. What a write keeps, every run of
operations keeps.
-/

namespace Stubgen

/-- The class with its methods left out of account. -/
def Class.withoutMethods (c : Class) : Class :=
  { c with methods := .empty }

namespace Namespace

/-- What may be done to a namespace. -/
inductive Operation where
  | confirmClass (nativeName : String) (definition : ClassDefinition)
  | ensureClass (nativeName : String)
  | addFunction (function : Callable) (hfunction : function.isMethod = false)
      (native? : Option String)
  | addMethod (nativeName : String) (method : Callable) (hmethod : method.isMethod = true)
      (native? : Option String)
  | addConstant (name line : String)
  /-- Gives other parameters to the callable that a native identifier refers to. -/
  | setTypes (native : String) (types : List TypedName)
  | applyOverrides (set : OverrideSet)
  /-- Adds the constants of a live module; an introspector that fails adds none. -/
  | augment (introspector : Introspector) (module : String)

/-- The namespace after an operation. -/
def perform (ns : Namespace) : Operation → Namespace
  | .confirmClass nativeName definition => ns.confirmClass nativeName definition
  | .ensureClass nativeName => ns.ensureClass nativeName
  | .addFunction function _ native? => ns.addFunction function native?
  | .addMethod nativeName method _ native? => ns.addMethod nativeName method native?
  | .addConstant name line => ns.addConstant name line
  | .setTypes native types => ns.reviseCallable native (·.withTypes types)
  | .applyOverrides set => ns.applyOverrides set
  | .augment introspector module =>
    match ns.augmentFrom introspector module with
    | .error _ => ns
    | .ok (extended, _) => extended

/-- The namespace that a sequence of operations makes of an empty one. -/
def ofOperations (operations : List Operation) : Namespace :=
  operations.foldl perform empty

/-- The namespace with a function in place of the one of this name. -/
def writeFunction (ns : Namespace) (name : String) (function : Callable) : Namespace :=
  { ns with functions := ns.functions.insert name function }

/-- The namespace with a method of a class in place of the one of this name. -/
def writeMethod (ns : Namespace) (nativeName : String) (c : Class) (name : String)
    (method : Callable) : Namespace :=
  { ns with
    classes := ns.classes.insert nativeName
      { c with methods := c.methods.insert name method } }

/-- The namespace with another target of a native identifier. -/
def writeNative (ns : Namespace) (native : String) (target : NativeTarget) : Namespace :=
  { ns with natives := ns.natives.insert native target }

/-- Whether the function or method that a target names is there. -/
def HasTarget (ns : Namespace) : NativeTarget → Prop
  | .classNamed _ => False
  | .functionNamed name => ns.functions.contains name
  | .methodOf nativeName method => (ns.method? nativeName method).isSome

/-- The single writes of which operations are made. -/
inductive Write : Namespace → Namespace → Prop where
  /-- A class keeps the methods that were known, and it is provisional only if it is new. -/
  | ofClass {ns : Namespace} {nativeName : String} {c : Class}
      (hname : c.nativeName = nativeName)
      (hmethods : c.methods = (ns.classOrAssumed nativeName).methods)
      (hstatus : c.confirmed = true ∨
        ns.class? nativeName = none ∧ c = .provisional nativeName) :
      Write ns (ns.putClass nativeName c)
  | ofFunction {ns : Namespace} {name : String} {function : Callable}
      (hname : function.name = name) (hfunction : function.isMethod = false) :
      Write ns (ns.writeFunction name function)
  | ofMethod {ns : Namespace} {nativeName name : String} {c : Class} {method : Callable}
      (hclass : ns.class? nativeName = some c) (hname : method.name = name)
      (hmethod : method.isMethod = true) :
      Write ns (ns.writeMethod nativeName c name method)
  | ofNative {ns : Namespace} {native : String} {target : NativeTarget}
      (htarget : ns.HasTarget target) :
      Write ns (ns.writeNative native target)
  | ofConstant {ns : Namespace} {name line : String} :
      Write ns (ns.addConstant name line)

/-- The last operation is performed on what the operations before it have made. -/
theorem ofOperations_append_singleton (operations : List Operation) (operation : Operation) :
    ofOperations (operations ++ [operation]) = (ofOperations operations).perform operation := by
  rw [ofOperations, List.foldl_append]
  rfl

/-! ## Lookups after a write -/

/-- After a class has been written, it is there, and every other class is as before. -/
@[simp] theorem class?_putClass (ns : Namespace) (nativeName other : String) (c : Class) :
    (ns.putClass nativeName c).class? other =
      if other = nativeName then some c else ns.class? other := by
  simp [class?, putClass]

/-- Writing a method of a class puts the class with the method under its native name. -/
@[simp] theorem class?_writeMethod (ns : Namespace) (nativeName name other : String) (c : Class)
    (method : Callable) :
    (ns.writeMethod nativeName c name method).class? other =
      if other = nativeName then some { c with methods := c.methods.insert name method }
      else ns.class? other := by
  simp [class?, writeMethod]

/-- The methods of a class that has not been seen are none. -/
theorem method?_eq_get?_classOrAssumed (ns : Namespace) (nativeName name : String) :
    ns.method? nativeName name = (ns.classOrAssumed nativeName).methods.get? name := by
  unfold method? classOrAssumed
  cases ns.class? nativeName with
  | none => rfl
  | some c => rfl

/-- A class that is written with the methods that were known changes no method. -/
theorem method?_putClass {ns : Namespace} {nativeName : String} {c : Class}
    (hmethods : c.methods = (ns.classOrAssumed nativeName).methods) (other name : String) :
    (ns.putClass nativeName c).method? other name = ns.method? other name := by
  by_cases heq : other = nativeName
  · rw [method?_eq_get?_classOrAssumed ns, heq, ← hmethods]
    simp [method?]
  · simp [method?, heq]

/-- After a method has been written, its class has it, and every other method is as before. -/
theorem method?_writeMethod {ns : Namespace} {nativeName : String} {c : Class}
    (hclass : ns.class? nativeName = some c) (name : String) (method : Callable)
    (other otherName : String) :
    (ns.writeMethod nativeName c name method).method? other otherName =
      if other = nativeName ∧ otherName = name then some method
      else ns.method? other otherName := by
  by_cases heq : other = nativeName
  · simp [method?, heq, hclass]
  · simp [method?, heq]

/-- A method is there exactly if its class is there and has it. -/
theorem method?_eq_some_iff {ns : Namespace} {nativeName name : String} {method : Callable} :
    ns.method? nativeName name = some method ↔
      ∃ c, ns.class? nativeName = some c ∧ c.methods.get? name = some method := by
  simp [method?, Option.bind_eq_some_iff]

/-! ## Functions and methods that are taken up or refused -/

/-- After making sure of a class, it is there. -/
theorem class?_ensureClass (ns : Namespace) (nativeName : String) :
    (ns.ensureClass nativeName).class? nativeName = some (ns.classOrAssumed nativeName) := by
  unfold ensureClass classOrAssumed
  cases hclass : ns.class? nativeName with
  | some c => simpa using hclass
  | none => simp

/-- Making sure of a class changes no method. -/
@[simp] theorem method?_ensureClass (ns : Namespace) (nativeName other name : String) :
    (ns.ensureClass nativeName).method? other name = ns.method? other name := by
  unfold ensureClass
  cases hclass : ns.class? nativeName with
  | some c => rfl
  | none => exact method?_putClass (by simp [classOrAssumed, hclass]) other name

/-- A method that is put into a class that is there is written into it. -/
theorem putMethod_eq_writeMethod {ns : Namespace} {nativeName : String} {c : Class}
    (hclass : ns.class? nativeName = some c) (method : Callable) :
    ns.putMethod nativeName method = ns.writeMethod nativeName c method.name method := by
  unfold putMethod
  rw [hclass]
  rfl

/-- A function that is taken up is written under its name. -/
theorem addFunction_of_accepts {ns : Namespace} {function : Callable}
    (haccepts : ns.acceptsFunction function = true) (native? : Option String) :
    ns.addFunction function native? =
      (ns.writeFunction function.name function).register native?
        (.functionNamed function.name) := by
  rw [addFunction, if_pos haccepts]
  rfl

/-- A function that is refused changes nothing. -/
theorem addFunction_of_refuses {ns : Namespace} {function : Callable}
    (hrefuses : ns.acceptsFunction function = false) (native? : Option String) :
    ns.addFunction function native? = ns := by
  rw [addFunction, if_neg (by simp [hrefuses])]

/-- A method that is taken up is written into its class, which is made beforehand if it is
new. -/
theorem addMethod_of_accepts {ns : Namespace} {nativeName : String} {method : Callable}
    (haccepts : ns.acceptsMethod nativeName method = true) (native? : Option String) :
    ns.addMethod nativeName method native? =
      ((ns.ensureClass nativeName).writeMethod nativeName (ns.classOrAssumed nativeName)
        method.name method).register native? (.methodOf nativeName method.name) := by
  have haccepts' : (ns.ensureClass nativeName).acceptsMethod nativeName method = true := by
    rwa [acceptsMethod, method?_ensureClass]
  have hready := class?_ensureClass ns nativeName
  simp only [addMethod, if_pos haccepts', putMethod_eq_writeMethod hready]

/-- A method is refused only if there is one of its name, so its class is there. -/
theorem ensureClass_of_refuses {ns : Namespace} {nativeName : String} {method : Callable}
    (hrefuses : ns.acceptsMethod nativeName method = false) : ns.ensureClass nativeName = ns := by
  have hthere : ∃ existing, ns.method? nativeName method.name = some existing := by
    cases hmethod : ns.method? nativeName method.name with
    | none => simp [acceptsMethod, accepts, hmethod] at hrefuses
    | some existing => exact ⟨existing, rfl⟩
  obtain ⟨existing, hexisting⟩ := hthere
  obtain ⟨c, hclass, _⟩ := method?_eq_some_iff.mp hexisting
  rw [ensureClass, hclass]

/-- A method that is refused changes nothing. -/
theorem addMethod_of_refuses {ns : Namespace} {nativeName : String} {method : Callable}
    (hrefuses : ns.acceptsMethod nativeName method = false) (native? : Option String) :
    ns.addMethod nativeName method native? = ns := by
  simp only [addMethod, ensureClass_of_refuses hrefuses, hrefuses, Bool.false_eq_true, if_false]

end Namespace

end Stubgen
