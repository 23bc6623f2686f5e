import Stubgen.Proofs.Namespace.Operation
import Mathlib.Data.List.Induction
import Mathlib.Logic.Relation

/-!
# Integrity of namespaces

Four tables make up a namespace, and the table of native identifiers refers to the others by
key. This file proves that no run of operations leaves a reference that leads nowhere: every
entry is stored under its own name, every native identifier refers to an entry that is there,
and nothing that was there is lost. Both facts are proved for the single writes of which
operations are made.
-/

namespace Stubgen.Namespace

/-- The entries of a namespace are stored under their own names, and native identifiers refer
to entries that are there. -/
structure Integrity (ns : Namespace) : Prop where
  /-- A class is stored under its native name. -/
  class_named : ∀ nativeName c, ns.class? nativeName = some c → c.nativeName = nativeName
  /-- A function is stored under its name and has no receiver. -/
  function_named : ∀ name function, ns.functions.get? name = some function →
    function.name = name ∧ function.isMethod = false
  /-- A method is stored under its name and has a receiver. -/
  method_named : ∀ nativeName name method, ns.method? nativeName name = some method →
    method.name = name ∧ method.isMethod = true
  /-- The function that a native identifier refers to is there. -/
  function_there : ∀ native name, ns.natives.get? native = some (.functionNamed name) →
    ∃ function, ns.functions.get? name = some function
  /-- The class and the method that a native identifier refers to are there. -/
  method_there : ∀ native nativeName name,
    ns.natives.get? native = some (.methodOf nativeName name) →
    ∃ c method, ns.class? nativeName = some c ∧ c.methods.get? name = some method
  /-- Only the native name of a class refers to the class, which is there. -/
  class_there : ∀ native nativeName, ns.natives.get? native = some (.classNamed nativeName) →
    native = nativeName ∧ ∃ c, ns.class? nativeName = some c
  /-- The native name of a class is a native identifier. -/
  class_registered : ∀ nativeName c, ns.class? nativeName = some c →
    ∃ target, ns.natives.get? nativeName = some target
  /-- A provisional class is what is assumed of its native name, its methods apart. -/
  provisional_assumed : ∀ nativeName c, ns.class? nativeName = some c → c.confirmed = false →
    c.withoutMethods = .provisional nativeName

/-- Everything that an earlier namespace holds is there in a later one, and a class that was
confirmed still is. -/
structure Retains (earlier later : Namespace) : Prop where
  classes : ∀ nativeName c, earlier.class? nativeName = some c →
    ∃ c', later.class? nativeName = some c' ∧ (c.confirmed = true → c'.confirmed = true)
  methods : ∀ nativeName name, (earlier.method? nativeName name).isSome →
    (later.method? nativeName name).isSome
  functions : ∀ name, earlier.functions.contains name → later.functions.contains name
  constants : ∀ name, earlier.constants.contains name → later.constants.contains name
  natives : ∀ native, earlier.natives.contains native → later.natives.contains native

/-! ## What every write keeps -/

/-- The empty namespace has nothing to refer to and refers to nothing. -/
theorem integrity_empty : Integrity empty := by
  constructor <;> simp [empty, class?, method?]

/-- A native identifier whose target is there leaves every other entry alone. -/
theorem Integrity.writeNative {ns : Namespace} (h : ns.Integrity) {native : String}
    {target : NativeTarget} (htarget : ns.HasTarget target) :
    (ns.writeNative native target).Integrity where
  class_named := h.class_named
  function_named := h.function_named
  method_named := h.method_named
  function_there := by
    intro other name hother
    simp only [Namespace.writeNative, Table.get?_insert] at hother
    split at hother
    · obtain rfl := Option.some.inj hother
      exact Option.isSome_iff_exists.mp htarget
    · exact h.function_there other name hother
  method_there := by
    intro other nativeName name hother
    simp only [Namespace.writeNative, Table.get?_insert] at hother
    split at hother
    · obtain rfl := Option.some.inj hother
      obtain ⟨method, hmethod⟩ := Option.isSome_iff_exists.mp htarget
      obtain ⟨c, hclass, hmethod⟩ := method?_eq_some_iff.mp hmethod
      exact ⟨c, method, hclass, hmethod⟩
    · exact h.method_there other nativeName name hother
  class_there := by
    intro other nativeName hother
    simp only [Namespace.writeNative, Table.get?_insert] at hother
    split at hother
    · obtain rfl := Option.some.inj hother
      exact htarget.elim
    · exact h.class_there other nativeName hother
  class_registered := by
    intro nativeName c hclass
    simp only [Namespace.writeNative, Table.get?_insert]
    split
    · exact ⟨target, rfl⟩
    · exact h.class_registered nativeName c hclass
  provisional_assumed := h.provisional_assumed

/-- A class under its native name, with the methods that were known. -/
theorem Integrity.putClass {ns : Namespace} (h : ns.Integrity) {nativeName : String} {c : Class}
    (hname : c.nativeName = nativeName)
    (hmethods : c.methods = (ns.classOrAssumed nativeName).methods)
    (hstatus : c.confirmed = true ∨
      ns.class? nativeName = none ∧ c = .provisional nativeName) :
    (ns.putClass nativeName c).Integrity where
  class_named := by
    intro other c' hclass
    rw [class?_putClass] at hclass
    split at hclass
    · next heq =>
      obtain rfl := Option.some.inj hclass
      rw [hname, heq]
    · exact h.class_named other c' hclass
  function_named := h.function_named
  method_named := by
    intro other name method hmethod
    rw [method?_putClass hmethods] at hmethod
    exact h.method_named other name method hmethod
  function_there := by
    intro native name hnative
    simp only [Namespace.putClass, Table.get?_insert] at hnative
    split at hnative
    · cases hnative
    · exact h.function_there native name hnative
  method_there := by
    intro native other name hnative
    simp only [Namespace.putClass, Table.get?_insert] at hnative
    split at hnative
    · cases hnative
    · obtain ⟨c', method, hclass, hmethod⟩ := h.method_there native other name hnative
      have hold := method?_eq_some_iff.mpr ⟨c', hclass, hmethod⟩
      rw [← method?_putClass hmethods] at hold
      obtain ⟨c'', hclass, hmethod⟩ := method?_eq_some_iff.mp hold
      exact ⟨c'', method, hclass, hmethod⟩
  class_there := by
    intro native other hnative
    rw [class?_putClass]
    simp only [Namespace.putClass, Table.get?_insert] at hnative
    split at hnative
    · next heq =>
      obtain rfl : nativeName = other := by simpa using hnative
      exact ⟨heq, c, by simp⟩
    · obtain ⟨rfl, c', hclass⟩ := h.class_there native other hnative
      split
      · exact ⟨rfl, c, rfl⟩
      · exact ⟨rfl, c', hclass⟩
  class_registered := by
    intro other c' hclass
    rw [class?_putClass] at hclass
    simp only [Namespace.putClass, Table.get?_insert]
    split
    · exact ⟨_, rfl⟩
    · next hne =>
      rw [if_neg hne] at hclass
      exact h.class_registered other c' hclass
  provisional_assumed := by
    intro other c' hclass hconfirmed
    rw [class?_putClass] at hclass
    split at hclass
    · next heq =>
      obtain rfl := Option.some.inj hclass
      rcases hstatus with hstatus | ⟨_, hstatus⟩
      · simp [hstatus] at hconfirmed
      · rw [hstatus, heq]
        rfl
    · exact h.provisional_assumed other c' hclass hconfirmed

/-- A function under its name. -/
theorem Integrity.writeFunction {ns : Namespace} (h : ns.Integrity) {name : String}
    {function : Callable} (hname : function.name = name)
    (hfunction : function.isMethod = false) : (ns.writeFunction name function).Integrity where
  class_named := h.class_named
  function_named := by
    intro other function' hother
    simp only [Namespace.writeFunction, Table.get?_insert] at hother
    split at hother
    · next heq =>
      obtain rfl := Option.some.inj hother
      exact ⟨hname.trans heq.symm, hfunction⟩
    · exact h.function_named other function' hother
  method_named := h.method_named
  function_there := by
    intro native other hnative
    simp only [Namespace.writeFunction, Table.get?_insert]
    split
    · exact ⟨function, rfl⟩
    · exact h.function_there native other hnative
  method_there := h.method_there
  class_there := h.class_there
  class_registered := h.class_registered
  provisional_assumed := h.provisional_assumed

/-- A method under its name, in a class that is there. -/
theorem Integrity.writeMethod {ns : Namespace} (h : ns.Integrity) {nativeName name : String}
    {c : Class} {method : Callable} (hclass : ns.class? nativeName = some c)
    (hname : method.name = name) (hmethod : method.isMethod = true) :
    (ns.writeMethod nativeName c name method).Integrity where
  class_named := by
    intro other c' hother
    rw [class?_writeMethod] at hother
    split at hother
    · next heq =>
      obtain rfl := Option.some.inj hother
      exact (h.class_named nativeName c hclass).trans heq.symm
    · exact h.class_named other c' hother
  function_named := h.function_named
  method_named := by
    intro other otherName method' hother
    rw [method?_writeMethod hclass] at hother
    split at hother
    · next heq =>
      obtain rfl := Option.some.inj hother
      exact ⟨hname.trans heq.2.symm, hmethod⟩
    · exact h.method_named other otherName method' hother
  function_there := h.function_there
  method_there := by
    intro native other otherName hnative
    obtain ⟨c', method', hold⟩ := h.method_there native other otherName hnative
    have hold := method?_eq_some_iff.mpr ⟨c', hold⟩
    have hnew : ∃ found,
        (ns.writeMethod nativeName c name method).method? other otherName = some found := by
      rw [method?_writeMethod hclass]
      split
      · exact ⟨method, rfl⟩
      · exact ⟨method', hold⟩
    obtain ⟨found, hfound⟩ := hnew
    obtain ⟨c'', hclass', hmethod'⟩ := method?_eq_some_iff.mp hfound
    exact ⟨c'', found, hclass', hmethod'⟩
  class_there := by
    intro native other hnative
    obtain ⟨heq, c', hother⟩ := h.class_there native other hnative
    refine ⟨heq, ?_⟩
    rw [class?_writeMethod]
    split
    · exact ⟨_, rfl⟩
    · exact ⟨c', hother⟩
  class_registered := by
    intro other c' hother
    rw [class?_writeMethod] at hother
    split at hother
    · next heq =>
      rw [heq]
      exact h.class_registered nativeName c hclass
    · exact h.class_registered other c' hother
  provisional_assumed := by
    intro other c' hother hconfirmed
    rw [class?_writeMethod] at hother
    split at hother
    · next heq =>
      obtain rfl := Option.some.inj hother
      rw [heq]
      exact h.provisional_assumed nativeName c hclass hconfirmed
    · exact h.provisional_assumed other c' hother hconfirmed

/-- The line of a constant touches nothing else. -/
theorem Integrity.addConstant {ns : Namespace} (h : ns.Integrity) (name line : String) :
    (ns.addConstant name line).Integrity where
  class_named := h.class_named
  function_named := h.function_named
  method_named := h.method_named
  function_there := h.function_there
  method_there := h.method_there
  class_there := h.class_there
  class_registered := h.class_registered
  provisional_assumed := h.provisional_assumed

/-- Every write keeps the integrity of a namespace. -/
theorem Write.integrity {ns next : Namespace} (hwrite : Write ns next) (h : ns.Integrity) :
    next.Integrity := by
  cases hwrite with
  | ofClass hname hmethods hstatus => exact h.putClass hname hmethods hstatus
  | ofFunction hname hfunction => exact h.writeFunction hname hfunction
  | ofMethod hclass hname hmethod => exact h.writeMethod hclass hname hmethod
  | ofNative htarget => exact h.writeNative htarget
  | ofConstant => exact h.addConstant _ _

/-! ## What every write retains -/

/-- A namespace retains what it holds. -/
theorem Retains.refl (ns : Namespace) : ns.Retains ns where
  classes := fun _ c hclass => ⟨c, hclass, id⟩
  methods := fun _ _ => id
  functions := fun _ => id
  constants := fun _ => id
  natives := fun _ => id

/-- What is retained twice is retained. -/
theorem Retains.trans {first second third : Namespace} (h : first.Retains second)
    (h' : second.Retains third) : first.Retains third where
  classes := by
    intro nativeName c hclass
    obtain ⟨c', hclass', hstatus⟩ := h.classes nativeName c hclass
    obtain ⟨c'', hclass'', hstatus'⟩ := h'.classes nativeName c' hclass'
    exact ⟨c'', hclass'', fun hconfirmed => hstatus' (hstatus hconfirmed)⟩
  methods := fun nativeName name hmethod =>
    h'.methods nativeName name (h.methods nativeName name hmethod)
  functions := fun name hfunction => h'.functions name (h.functions name hfunction)
  constants := fun name hconstant => h'.constants name (h.constants name hconstant)
  natives := fun native hnative => h'.natives native (h.natives native hnative)

/-- No write loses an entry or the definition of a class. -/
theorem Write.retains {ns next : Namespace} (hwrite : Write ns next) : ns.Retains next := by
  have hsame := Retains.refl ns
  cases hwrite with
  | @ofClass nativeName c _ hmethods hstatus =>
    refine ⟨fun other c' hclass => ?_, fun other name hmethod => ?_, hsame.functions,
      hsame.constants, fun native hnative => ?_⟩
    · rw [class?_putClass]
      split
      · next heq =>
        refine ⟨c, rfl, fun _ => hstatus.resolve_right ?_⟩
        rintro ⟨hnew, _⟩
        rw [heq, hnew] at hclass
        exact nomatch hclass
      · exact ⟨c', hclass, id⟩
    · rwa [method?_putClass hmethods]
    · simp only [putClass, Table.contains_insert, hnative, Bool.or_true]
  | ofFunction _ _ =>
    refine ⟨hsame.classes, hsame.methods, fun other hfunction => ?_, hsame.constants,
      hsame.natives⟩
    simp only [writeFunction, Table.contains_insert, hfunction, Bool.or_true]
  | @ofMethod nativeName name c method hclass _ _ =>
    refine ⟨fun other c' hother => ?_, fun other otherName hmethod => ?_, hsame.functions,
      hsame.constants, hsame.natives⟩
    · rw [class?_writeMethod]
      split
      · next heq =>
        rw [heq, hclass] at hother
        obtain rfl := Option.some.inj hother
        exact ⟨_, rfl, id⟩
      · exact ⟨c', hother, id⟩
    · rw [method?_writeMethod hclass]
      split
      · rfl
      · exact hmethod
  | ofNative _ =>
    refine ⟨hsame.classes, hsame.methods, hsame.functions, hsame.constants,
      fun other hnative => ?_⟩
    simp only [writeNative, Table.contains_insert, hnative, Bool.or_true]
  | ofConstant =>
    refine ⟨hsame.classes, hsame.methods, hsame.functions, fun other hconstant => ?_,
      hsame.natives⟩
    simp only [addConstant, Table.contains_insert, hconstant, Bool.or_true]

/-! ## Operations as writes -/

/-- A sequence of writes. -/
abbrev Writes : Namespace → Namespace → Prop :=
  Relation.ReflTransGen Write

/-- Any number of writes keep the integrity of a namespace. -/
theorem Writes.integrity {ns next : Namespace} (hwrites : Writes ns next) (h : ns.Integrity) :
    next.Integrity := by
  induction hwrites with
  | refl => exact h
  | tail _ hwrite ih => exact hwrite.integrity ih

/-- Any number of writes retain every entry. -/
theorem Writes.retains {ns next : Namespace} (hwrites : Writes ns next) : ns.Retains next := by
  induction hwrites with
  | refl => exact .refl ns
  | tail _ hwrite ih => exact ih.trans hwrite.retains

/-- Taking up the definition of a class is one write. -/
theorem write_confirmClass {ns : Namespace} (h : ns.Integrity) (nativeName : String)
    (definition : ClassDefinition) : Write ns (ns.confirmClass nativeName definition) := by
  refine .ofClass ?_ rfl (.inl rfl)
  change (ns.classOrAssumed nativeName).nativeName = nativeName
  unfold classOrAssumed
  cases hclass : ns.class? nativeName with
  | none => rfl
  | some c => exact h.class_named nativeName c hclass

/-- Making sure of a class writes it only if it is new. -/
theorem writes_ensureClass (ns : Namespace) (nativeName : String) :
    Writes ns (ns.ensureClass nativeName) := by
  unfold ensureClass
  cases hclass : ns.class? nativeName with
  | some c => exact .refl
  | none =>
    refine .single (.ofClass rfl ?_ (.inr ⟨hclass, rfl⟩))
    simp [classOrAssumed, hclass]

/-- Registering an identifier for a target that is there is at most one write. -/
theorem writes_register {ns : Namespace} {target : NativeTarget} (htarget : ns.HasTarget target)
    (native? : Option String) : Writes ns (ns.register native? target) := by
  cases native? with
  | none => exact .refl
  | some native => exact .single (.ofNative htarget)

/-- Taking up a function writes it before the identifier that refers to it. -/
theorem writes_addFunction (ns : Namespace) {function : Callable}
    (hfunction : function.isMethod = false) (native? : Option String) :
    Writes ns (ns.addFunction function native?) := by
  cases haccepts : ns.acceptsFunction function with
  | false =>
    rw [addFunction_of_refuses haccepts]
  | true =>
    rw [addFunction_of_accepts haccepts]
    refine .head (.ofFunction rfl hfunction) (writes_register ?_ native?)
    simp [HasTarget, writeFunction]

/-- Taking up a method makes sure of its class, writes the method and then the identifier that
refers to it. -/
theorem writes_addMethod (ns : Namespace) (nativeName : String) {method : Callable}
    (hmethod : method.isMethod = true) (native? : Option String) :
    Writes ns (ns.addMethod nativeName method native?) := by
  cases haccepts : ns.acceptsMethod nativeName method with
  | false =>
    rw [addMethod_of_refuses haccepts]
  | true =>
    rw [addMethod_of_accepts haccepts]
    have hclass := class?_ensureClass ns nativeName
    refine (writes_ensureClass ns nativeName).trans
      (.head (.ofMethod hclass rfl hmethod) (writes_register ?_ native?))
    simp [HasTarget, method?_writeMethod hclass]

/-- A revision that changes neither the name of a callable nor its kind is at most one
write. -/
theorem writes_reviseCallable {ns : Namespace} (h : ns.Integrity) (native : String)
    {revise : Callable → Callable} (hname : ∀ callable, (revise callable).name = callable.name)
    (hkind : ∀ callable, (revise callable).isMethod = callable.isMethod) :
    Writes ns (ns.reviseCallable native revise) := by
  unfold reviseCallable
  split
  · exact .refl
  · exact .refl
  · next name _ =>
    split
    · exact .refl
    · next function hfunction =>
      obtain ⟨hfunctionName, hfunctionKind⟩ := h.function_named name function hfunction
      exact .single (.ofFunction ((hname function).trans hfunctionName)
        ((hkind function).trans hfunctionKind))
  · next nativeName name _ =>
    split
    · exact .refl
    · next c hclass =>
      split
      · exact .refl
      · next method hmethod =>
        obtain ⟨hmethodName, hmethodKind⟩ := h.method_named nativeName name method
          (method?_eq_some_iff.mpr ⟨c, hclass, hmethod⟩)
        exact .single (.ofMethod hclass ((hname method).trans hmethodName)
          ((hkind method).trans hmethodKind))

/-- A wrapper tells neither the name of a callable nor its kind. -/
theorem refine_name_and_kind (override : Override) (callable : Callable) :
    (override.refine callable).name = callable.name ∧
      (override.refine callable).isMethod = callable.isMethod := by
  unfold Override.refine
  split
  · exact ⟨rfl, rfl⟩
  · exact ⟨rfl, rfl⟩

/-- Overrides revise one callable after the other. -/
theorem writes_applyOverrides {ns : Namespace} (h : ns.Integrity) (set : OverrideSet) :
    Writes ns (ns.applyOverrides set) := by
  unfold applyOverrides
  induction set.wrappers.entries generalizing ns with
  | nil => exact .refl
  | cons entry rest ih =>
    have hentry : Writes ns (ns.reviseCallable entry.1 entry.2.refine) :=
      writes_reviseCallable h entry.1 (fun callable => (refine_name_and_kind entry.2 callable).1)
        fun callable => (refine_name_and_kind entry.2 callable).2
    exact hentry.trans (ih (hentry.integrity h))

/-- The constants of a live module are written one after the other. -/
theorem writes_augment (ns : Namespace) (constants : List (String × Constant)) :
    Writes ns (ns.augment constants) := by
  -- The lines are rendered against the names of the given namespace and written into the
  -- growing one, so the induction keeps the two apart.
  suffices hfold : ∀ (missing : List (String × Constant)) (extended : Namespace),
      Writes extended (missing.foldl
        (fun extended entry =>
          extended.addConstant entry.1 (entry.2.line ns.hasDisplayName entry.1)) extended) from
    hfold (ns.missingConstants constants) ns
  intro missing
  induction missing with
  | nil => exact fun _ => .refl
  | cons entry rest ih => exact fun extended => .head .ofConstant (ih _)

/-- An operation is a sequence of writes. -/
theorem writes_perform {ns : Namespace} (h : ns.Integrity) (operation : Operation) :
    Writes ns (ns.perform operation) := by
  cases operation with
  | confirmClass nativeName definition => exact .single (write_confirmClass h nativeName definition)
  | ensureClass nativeName => exact writes_ensureClass ns nativeName
  | addFunction function hfunction native? => exact writes_addFunction ns hfunction native?
  | addMethod nativeName method hmethod native? =>
    exact writes_addMethod ns nativeName hmethod native?
  | addConstant name line => exact .single .ofConstant
  | setTypes native types => exact writes_reviseCallable h native (fun _ => rfl) fun _ => rfl
  | applyOverrides set => exact writes_applyOverrides h set
  | augment introspector module =>
    simp only [perform, augmentFrom]
    rcases introspector.examine module with e | none | constants
    · exact .refl
    · exact .refl
    · exact writes_augment ns constants

/-- Every run of operations on the empty namespace ends with integrity. -/
theorem integrity_ofOperations (operations : List Operation) :
    (ofOperations operations).Integrity := by
  induction operations using List.reverseRecOn with
  | nil => exact integrity_empty
  | append_singleton operations operation ih =>
    rw [ofOperations, List.foldl_append]
    exact (writes_perform ih operation).integrity ih

/-- In a namespace with integrity an identifier fails to reach a callable only if it is unknown
or names a class. -/
theorem Integrity.callable?_eq_none_iff {ns : Namespace} (h : ns.Integrity) (native : String) :
    ns.callable? native = none ↔
      ns.natives.get? native = none ∨ ns.natives.get? native = some (.classNamed native) := by
  unfold callable?
  cases hnative : ns.natives.get? native with
  | none => simp
  | some target =>
    cases target with
    | classNamed nativeName =>
      obtain ⟨rfl, _⟩ := h.class_there native nativeName hnative
      simp
    | functionNamed name =>
      obtain ⟨function, hfunction⟩ := h.function_there native name hnative
      simp [hfunction]
    | methodOf nativeName name =>
      obtain ⟨c, method, hmethod⟩ := h.method_there native nativeName name hnative
      simp [method?_eq_some_iff.mpr ⟨c, hmethod⟩]

/-- A function that is taken up is there, and its native identifier reaches it. -/
theorem addFunction_reached {ns : Namespace} {function : Callable}
    (haccepts : ns.acceptsFunction function = true) (native? : Option String) :
    (ns.addFunction function native?).functions.get? function.name = some function ∧
      ∀ native ∈ native?, (ns.addFunction function native?).callable? native = some function := by
  rw [addFunction_of_accepts haccepts]
  cases native? with
  | none => simp [register, writeFunction]
  | some native => simp [register, writeFunction, callable?]

/-- A method that is taken up is there, and its native identifier reaches it. -/
theorem addMethod_reached {ns : Namespace} {nativeName : String} {method : Callable}
    (haccepts : ns.acceptsMethod nativeName method = true) (native? : Option String) :
    (ns.addMethod nativeName method native?).method? nativeName method.name = some method ∧
      ∀ native ∈ native?,
        (ns.addMethod nativeName method native?).callable? native = some method := by
  have hfound := method?_writeMethod (class?_ensureClass ns nativeName) method.name method
    nativeName method.name
  rw [if_pos ⟨rfl, rfl⟩] at hfound
  rw [addMethod_of_accepts haccepts]
  cases native? with
  | none => exact ⟨hfound, by simp⟩
  | some native =>
    refine ⟨hfound, ?_⟩
    rintro _ ⟨rfl⟩
    simp only [register, callable?, Table.get?_insert, if_true]
    exact hfound

/-- Every namespace that operations make of the empty one has integrity, and its native
identifiers reach a callable unless they are unknown or name a class. No further operation
loses an entry or the definition of a class. A function or method that is refused changes
nothing, and one that is taken up is reached by its name and by its native identifier. -/
theorem integrity_of_run (operations : List Operation) :
    let ns := ofOperations operations
    ns.Integrity ∧
      (∀ native, ns.callable? native = none ↔
        ns.natives.get? native = none ∨ ns.natives.get? native = some (.classNamed native)) ∧
      (∀ operation, ns.Retains (ns.perform operation)) ∧
      (∀ function native?, ns.acceptsFunction function = false →
        ns.addFunction function native? = ns) ∧
      (∀ nativeName method native?, ns.acceptsMethod nativeName method = false →
        ns.addMethod nativeName method native? = ns) ∧
      (∀ function native?, ns.acceptsFunction function = true →
        (ns.addFunction function native?).functions.get? function.name = some function ∧
          ∀ native ∈ native?,
            (ns.addFunction function native?).callable? native = some function) ∧
      ∀ nativeName method native?, ns.acceptsMethod nativeName method = true →
        (ns.addMethod nativeName method native?).method? nativeName method.name = some method ∧
          ∀ native ∈ native?,
            (ns.addMethod nativeName method native?).callable? native = some method := by
  have h := integrity_ofOperations operations
  refine ⟨h, h.callable?_eq_none_iff, fun operation => ?_, fun _ native? hrefuses => ?_,
    fun _ _ native? hrefuses => ?_, fun _ native? haccepts => ?_, fun _ _ native? haccepts => ?_⟩
  · exact (writes_perform h operation).retains
  · exact addFunction_of_refuses hrefuses native?
  · exact addMethod_of_refuses hrefuses native?
  · exact addFunction_reached haccepts native?
  · exact addMethod_reached haccepts native?

end Stubgen.Namespace
