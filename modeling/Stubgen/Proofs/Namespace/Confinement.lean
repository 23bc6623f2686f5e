import Stubgen.Proofs.Namespace.BuildSteps

/-!
# What a record may change

A record either lacks a field that its kind needs, and then it changes nothing, or it reaches one
class, one function or one method and the identifiers that belong to it. The definition of a record
is complete before it is taken up, so nothing is written by a record that fails. The same holds if
the namespace is changed in place, one write after the other: every check comes before the first
write. Records that are taken up in a row therefore stop at the first that fails, with the work of
those before it.
-/

namespace Stubgen

/-- What the taking up of a record may reach in a namespace. -/
structure Footprint where
  /-- The place whose callable may be replaced. -/
  place? : Option NativeTarget
  /-- The class that may be described anew, its methods apart. -/
  described? : Option String
  /-- The class that is made if it is not there, as a provisional one. -/
  assumed? : Option String
  /-- The identifiers that may come to refer to something else. -/
  natives : List String

namespace Footprint

/-- A class, its methods apart, and its native name. -/
def ofClass (nativeName : String) : Footprint :=
  ⟨none, some nativeName, none, [nativeName]⟩

/-- A function and the identifier that is given with it. -/
def ofFunction (name : String) (native? : Option String) : Footprint :=
  ⟨some (.functionNamed name), none, none, native?.toList⟩

/-- A method, the class that owns it, and the identifiers of both. -/
def ofMethod (nativeName name : String) (native? : Option String) : Footprint :=
  ⟨some (.methodOf nativeName name), none, some nativeName, nativeName :: native?.toList⟩

/-- Nothing. -/
def ofNothing : Footprint :=
  ⟨none, none, none, []⟩

/-- Everything outside a footprint is after a change as it was before, and a class that is made
within it is provisional. -/
structure Confines (footprint : Footprint) (ns after : Namespace) : Prop where
  constants_eq : after.constants = ns.constants
  at?_eq : ∀ target, footprint.place? ≠ some target → after.at? target = ns.at? target
  outline?_eq : ∀ nativeName, footprint.described? ≠ some nativeName →
    footprint.assumed? ≠ some nativeName → after.outline? nativeName = ns.outline? nativeName
  outline?_assumed : ∀ nativeName, footprint.assumed? = some nativeName →
    after.outline? nativeName = some (ns.classOrAssumed nativeName).withoutMethods
  natives_eq : ∀ native, native ∉ footprint.natives →
    after.natives.get? native = ns.natives.get? native

/-- A change that reaches nothing is none. -/
theorem Confines.eq_of_ofNothing {ns after : Namespace} (h : ofNothing.Confines ns after) :
    after = ns :=
  Namespace.ext_at? (fun target => h.at?_eq target nofun)
    (fun nativeName => h.outline?_eq nativeName nofun nofun) h.constants_eq
    (Table.ext_get? fun native => h.natives_eq native nofun)

end Footprint

namespace Defs

/-- A kind that makes no class is that of functions, that of methods or an unknown one. -/
theorem Kind.cases_of_not_isClassLike {kind : Kind} (h : kind.isClassLike = false) :
    kind = .function ∨ kind = .method ∨ ∃ label, kind = .other label := by
  cases kind with
  | function => exact .inl rfl
  | method => exact .inr (.inl rfl)
  | other label => exact .inr (.inr ⟨label, rfl⟩)
  | object | interface | enum | flags | boxed | pointer => exact nomatch h

namespace Record

/-- What a record may reach by its kind and its fields. -/
inductive HasFootprint (record : Record) : Footprint → Prop where
  | ofClass {nativeName : String} (hkind : record.kind.isClassLike = true)
      (hname : record.firstText? "c-name" = some nativeName) :
      HasFootprint record (.ofClass nativeName)
  /-- A function or method that constructs a class is the constructor of the class. -/
  | ofConstructor {nativeName : String} (hkind : record.kind = .function ∨ record.kind = .method)
      (howner : record.firstText? "is-constructor-of" = some nativeName) :
      HasFootprint record (.ofMethod nativeName constructorName (record.firstText? "c-name"))
  | ofMethod {nativeName : String} (hkind : record.kind = .method)
      (hconstructs : record.firstText? "is-constructor-of" = none)
      (howner : record.firstText? "of-object" = some nativeName) :
      HasFootprint record (.ofMethod nativeName record.name (record.firstText? "c-name"))
  | ofFunction (hkind : record.kind = .function)
      (hconstructs : record.firstText? "is-constructor-of" = none) :
      HasFootprint record (.ofFunction record.name (record.firstText? "c-name"))
  | ofOther {label : String} (hkind : record.kind = .other label) : HasFootprint record .ofNothing

/-- A record of an unknown kind reaches nothing. -/
theorem HasFootprint.eq_ofNothing {record : Record} {footprint : Footprint} {label : String}
    (h : record.HasFootprint footprint) (hkind : record.kind = .other label) :
    footprint = .ofNothing := by
  cases h with
  | ofOther => rfl
  | ofClass hclass _ => exact nomatch hkind ▸ hclass
  | ofConstructor hcallable _ => exact hcallable.elim (nomatch hkind ▸ ·) (nomatch hkind ▸ ·)
  | ofMethod hmethod _ _ => exact nomatch hkind ▸ hmethod
  | ofFunction hfunction _ => exact nomatch hkind ▸ hfunction

/-- The field that a record lacks although its kind needs it. -/
inductive Lacks (record : Record) : String → Prop where
  | nativeName (hkind : record.kind.isClassLike = true)
      (hname : record.firstText? "c-name" = none) : Lacks record "c-name"
  | owner (hkind : record.kind = .method)
      (hconstructs : record.firstText? "is-constructor-of" = none)
      (howner : record.firstText? "of-object" = none) : Lacks record "of-object"

end Record

end Defs

namespace Definition

open Defs (Record)

/-- What a definition may reach. -/
def footprint : Definition → Footprint
  | .ofClass nativeName _ => .ofClass nativeName
  | .ofFunction function native? => .ofFunction function.name native?
  | .ofMethod nativeName method native? => .ofMethod nativeName method.name native?
  | .ofNothing => .ofNothing

/-- A constructor has the name of constructors. -/
@[simp] theorem name_constructorOf (record : Record) (nativeName : String) :
    (constructorOf record nativeName).name = constructorName := by
  unfold constructorOf
  split <;> rfl

/-- A record of a kind that makes a class defines the class that it names. -/
theorem ofRecord_of_isClassLike {style : DocStyle} {record : Record}
    (hkind : record.kind.isClassLike = true) :
    ofRecord style record =
      match record.firstText? "c-name" with
      | some nativeName => .ok (.ofClass nativeName (classOf style record nativeName))
      | none => .error (.missingField record.kind record.name "c-name") := by
  unfold ofRecord
  split
  · next heq => exact nomatch heq ▸ hkind
  · next heq => exact nomatch heq ▸ hkind
  · next heq => exact nomatch heq ▸ hkind
  · rfl

/-- A record that defines something has the footprint of its definition. -/
theorem hasFootprint_of_ofRecord {style : DocStyle} {record : Record} {definition : Definition}
    (h : ofRecord style record = .ok definition) : record.HasFootprint definition.footprint := by
  have hconstructor {nativeName : String} (hkind : record.kind = .function ∨ record.kind = .method)
      (howner : record.firstText? "is-constructor-of" = some nativeName) :
      record.HasFootprint (ofMethod nativeName (constructorOf record nativeName)
        (record.firstText? "c-name")).footprint := by
    rw [footprint, name_constructorOf]
    exact .ofConstructor hkind howner
  cases hclass : record.kind.isClassLike with
  | true =>
    rw [ofRecord_of_isClassLike hclass] at h
    split at h
    · next nativeName hname =>
      obtain rfl := Except.ok.inj h
      exact .ofClass hclass hname
    · contradiction
  | false =>
    obtain hkind | hkind | ⟨label, hkind⟩ := Defs.Kind.cases_of_not_isClassLike hclass
    · simp only [ofRecord, hkind, callableOfRecord, Bool.false_eq_true, if_false] at h
      split at h
      · next nativeName howner =>
        obtain rfl := Except.ok.inj h
        exact hconstructor (.inl hkind) howner
      · next hconstructs =>
        obtain rfl := Except.ok.inj h
        exact .ofFunction hkind hconstructs
    · simp only [ofRecord, hkind, callableOfRecord, if_true] at h
      split at h
      · next nativeName howner =>
        obtain rfl := Except.ok.inj h
        exact hconstructor (.inr hkind) howner
      · next hconstructs =>
        split at h
        · next nativeName howner =>
          obtain rfl := Except.ok.inj h
          exact .ofMethod hkind hconstructs howner
        · contradiction
    · simp only [ofRecord, hkind] at h
      obtain rfl := Except.ok.inj h
      exact .ofOther hkind

/-- A record fails exactly for want of a field that its kind needs. -/
theorem ofRecord_eq_error_iff {style : DocStyle} {record : Record} {e : Error} :
    ofRecord style record = .error e ↔
      ∃ field, record.Lacks field ∧ e = .missingField record.kind record.name field := by
  constructor
  · intro h
    cases hclass : record.kind.isClassLike with
    | true =>
      rw [ofRecord_of_isClassLike hclass] at h
      split at h
      · contradiction
      · next hname => exact ⟨"c-name", .nativeName hclass hname, (Except.error.inj h).symm⟩
    | false =>
      obtain hkind | hkind | ⟨label, hkind⟩ := Defs.Kind.cases_of_not_isClassLike hclass
      · simp only [ofRecord, hkind, callableOfRecord, Bool.false_eq_true, if_false] at h
        split at h <;> contradiction
      · simp only [ofRecord, hkind, callableOfRecord, if_true] at h
        split at h
        · contradiction
        · next hconstructs =>
          split at h
          · contradiction
          · next howner =>
            rw [← hkind] at h
            exact ⟨"of-object", .owner hkind hconstructs howner, (Except.error.inj h).symm⟩
      · simp only [ofRecord, hkind] at h
        contradiction
  · rintro ⟨field, hlacks, rfl⟩
    cases hlacks with
    | nativeName hkind hname => rw [ofRecord_of_isClassLike hkind, hname]
    | owner hkind hconstructs howner =>
      simp only [ofRecord, hkind, callableOfRecord, hconstructs, howner, if_true]

end Definition

namespace Namespace

open Defs (Record)

variable {style : DocStyle} {ns : Namespace}

/-- A definition stays within its footprint. -/
theorem confines_apply (style : DocStyle) (ns : Namespace) (definition : Definition) :
    definition.footprint.Confines ns (ns.apply style definition) := by
  cases definition with
  | ofClass nativeName classDefinition =>
    refine ⟨rfl, fun target _ => at?_confirmClass ns nativeName classDefinition target, ?_, nofun,
      ?_⟩
    · intro other hother _
      have hne : other ≠ nativeName := fun heq => hother (congrArg some heq.symm)
      exact (outline?_confirmClass ns nativeName other classDefinition).trans (if_neg hne)
    · intro native hnative
      have hne : native ≠ nativeName := fun heq => hnative (List.mem_singleton.mpr heq)
      exact (get?_natives_confirmClass ns nativeName native classDefinition).trans (if_neg hne)
  | ofFunction function native? =>
    refine ⟨constants_addFunction ns function native?, ?_, ?_, nofun, ?_⟩
    · intro target htarget
      have hne : target ≠ .functionNamed function.name :=
        fun heq => htarget (congrArg some heq.symm)
      exact (at?_addFunction ns function native? target).trans (if_neg hne)
    · intro nativeName _ _
      exact congrFun (outline?_addFunction ns function native?) nativeName
    · intro native hnative
      have hne : native? ≠ some native := fun heq => hnative (Option.mem_toList.mpr heq)
      exact (get?_natives_addFunction ns function native? native).trans (if_neg fun h => hne h.1)
  | ofMethod nativeName method native? =>
    simp only [apply]
    refine ⟨constants_addMethod ns nativeName _ native?, ?_, ?_, ?_, ?_⟩
    · intro target htarget
      have hne : target ≠ .methodOf nativeName method.name :=
        fun heq => htarget (congrArg some heq.symm)
      exact (at?_addMethod ns nativeName _ native? target).trans (if_neg hne)
    · intro other _ hother
      have hne : other ≠ nativeName := fun heq => hother (congrArg some heq.symm)
      exact (outline?_addMethod ns nativeName other _ native?).trans (if_neg hne)
    · intro other hother
      obtain rfl := Option.some.inj hother
      exact (outline?_addMethod ns nativeName nativeName _ native?).trans (if_pos rfl)
    · intro native hnative
      have hnotOwner : native ≠ nativeName := fun heq => hnative (heq ▸ List.mem_cons_self)
      have hne : native? ≠ some native :=
        fun heq => hnative (List.mem_cons_of_mem _ (Option.mem_toList.mpr heq))
      refine (get?_natives_addMethod ns nativeName _ native? native).trans ?_
      rw [if_neg fun h => hne h.1, if_neg fun h => hnotOwner h.1]
  | ofNothing =>
    have hnone (nativeName : String) : some nativeName ≠ none := Option.some_ne_none nativeName
    exact ⟨rfl, fun _ _ => rfl, fun _ _ _ => rfl,
      fun nativeName hassumed => absurd hassumed.symm (hnone nativeName), fun _ _ => rfl⟩

/-! ## Working in place -/

/-- Takes up a method in place. Its class is made first, if it is not there, and then looked up
for the module that the link of the method leads to. -/
def addMethodInPlace (style : DocStyle) (nativeName : String) (method : Callable)
    (native? : Option String) : EStateM Error Namespace Unit := do
  modify fun ns => ns.ensureClass nativeName
  let ns ← get
  let module? := (ns.classOrAssumed nativeName).definition.module?
  set (ns.addMethod nativeName (linked style module? nativeName method native?) native?)

/-- Takes up a record in place, one write after the other. A record that fails leaves what has been
written by then. -/
def defineInPlace (style : DocStyle) (record : Record) : EStateM Error Namespace Unit := do
  let native? := record.firstText? "c-name"
  if record.kind.isClassLike then
    match native? with
    | none => throw (.missingField record.kind record.name "c-name")
    | some nativeName =>
      modify fun ns => ns.confirmClass nativeName (Definition.classOf style record nativeName)
  else if record.kind = .function ∨ record.kind = .method then
    let returns := (record.firstText? "return-type").getD Tag.nothing
    match record.firstText? "is-constructor-of" with
    | some nativeName =>
      addMethodInPlace style nativeName (Definition.constructorOf record nativeName) native?
    | none =>
      if record.kind = .function then
        let function := Definition.callableOf record record.name false returns
        modify fun ns => ns.addFunction function native?
      else
        match record.firstText? "of-object" with
        | none => throw (.missingField record.kind record.name "of-object")
        | some nativeName =>
          let method := Definition.callableOf record record.name true returns
          addMethodInPlace style nativeName method native?

/-- A class that is there need not be made. -/
theorem ensureClass_ensureClass (ns : Namespace) (nativeName : String) :
    (ns.ensureClass nativeName).ensureClass nativeName = ns.ensureClass nativeName := by
  have hthere := class?_ensureClass ns nativeName
  rw [ensureClass, hthere]

/-- A method that is taken up in place comes to the same. -/
theorem run_addMethodInPlace (style : DocStyle) (ns : Namespace) (nativeName : String)
    (method : Callable) (native? : Option String) :
    (addMethodInPlace style nativeName method native?).run ns =
      .ok () (ns.apply style (.ofMethod nativeName method native?)) := by
  have hknown : (ns.ensureClass nativeName).classOrAssumed nativeName =
      ns.classOrAssumed nativeName := by
    rw [classOrAssumed, class?_ensureClass, Option.getD_some]
  have hadded (method : Callable) : (ns.ensureClass nativeName).addMethod nativeName method native? =
      ns.addMethod nativeName method native? := by
    simp only [addMethod, ensureClass_ensureClass]
  change EStateM.Result.ok () ((ns.ensureClass nativeName).addMethod nativeName _ native?) = _
  rw [hadded, hknown]
  rfl

/-- A record that is taken up in place comes to the same, and one that fails has written
nothing. -/
theorem run_defineInPlace (style : DocStyle) (ns : Namespace) (record : Record) :
    (defineInPlace style record).run ns =
      match ns.define style record with
      | .ok defined => .ok () defined
      | .error e => .error e ns := by
  cases hclass : record.kind.isClassLike with
  | true =>
    unfold defineInPlace define
    rw [if_pos hclass, Definition.ofRecord_of_isClassLike hclass]
    cases record.firstText? "c-name" <;> rfl
  | false =>
    obtain hkind | hkind | ⟨label, hkind⟩ := Defs.Kind.cases_of_not_isClassLike hclass
    · simp only [defineInPlace, define, Definition.ofRecord, Definition.callableOfRecord, hkind,
        Bool.false_eq_true, if_false, if_true, true_or]
      cases record.firstText? "is-constructor-of" with
      | some nativeName => exact run_addMethodInPlace style ns nativeName _ _
      | none => rfl
    · simp only [defineInPlace, define, Definition.ofRecord, Definition.callableOfRecord, hkind,
        if_false, if_true, or_true, reduceCtorEq]
      cases record.firstText? "is-constructor-of" with
      | some nativeName => exact run_addMethodInPlace style ns nativeName _ _
      | none =>
        cases record.firstText? "of-object" with
        | some nativeName => exact run_addMethodInPlace style ns nativeName _ _
        | none => rfl
    · simp only [defineInPlace, define, Definition.ofRecord, hkind, if_false, reduceCtorEq,
        or_self]
      rfl

/-- Records that are taken up in place come to the same: if one fails, the namespace is left with
the records before it. -/
theorem run_forM_defineInPlace (style : DocStyle) (ns : Namespace) (records : List Record) :
    (records.forM (defineInPlace style)).run ns =
      match (ns.defineAll style records).error? with
      | none => .ok () (ns.defineAll style records).reached
      | some e => .error e (ns.defineAll style records).reached := by
  induction records generalizing ns with
  | nil => rfl
  | cons record rest ih =>
    rw [List.forM_eq_forM, List.forM_cons, EStateM.run_bind, run_defineInPlace, defineAll]
    cases ns.define style record with
    | error e => rfl
    | ok next => exact ih next

/-- Records that fail fail at one of them, and the namespace that is reached is that of the records
before it. -/
theorem exists_failing_of_defineAll {records : List Record} {e : Error}
    (h : (ns.defineAll style records).error? = some e) :
    ∃ before record after, records = before ++ record :: after ∧
      (ns.defineAll style before).error? = none ∧
      (ns.defineAll style before).reached.define style record = .error e ∧
      (ns.defineAll style records).reached = (ns.defineAll style before).reached := by
  induction records generalizing ns with
  | nil => exact nomatch h
  | cons record rest ih =>
    cases hrecord : ns.define style record with
    | error other =>
      simp only [defineAll, hrecord, Option.some.injEq] at h
      subst h
      refine ⟨[], record, rest, rfl, rfl, hrecord, ?_⟩
      simp only [defineAll, hrecord]
    | ok next =>
      simp only [defineAll, hrecord] at h
      obtain ⟨before, failing, after, rfl, hbefore, hfailing, hreached⟩ := ih h
      refine ⟨record :: before, failing, after, rfl, ?_, ?_, ?_⟩
      all_goals simp only [defineAll, hrecord]
      · exact hbefore
      · exact hfailing
      · exact hreached

/-- A record fails exactly for want of a field that its kind needs, and then the namespace is left as
it was, also if it is changed in place. A record that does not fail changes nothing outside its
footprint. Records of which one fails leave what the records before the first that fails have
made. -/
theorem define_confined (style : DocStyle) (ns : Namespace) :
    (∀ record,
      (∀ e, ns.define style record = .error e ↔
        ∃ field, record.Lacks field ∧ e = .missingField record.kind record.name field) ∧
      (∀ e, ns.define style record = .error e →
        (defineInPlace style record).run ns = .error e ns) ∧
      ∀ defined, ns.define style record = .ok defined →
        (defineInPlace style record).run ns = .ok () defined ∧
        (∃ footprint, record.HasFootprint footprint ∧ footprint.Confines ns defined) ∧
        ∀ label, record.kind = .other label → defined = ns) ∧
    ∀ records e, (ns.defineAll style records).error? = some e →
      (records.forM (defineInPlace style)).run ns = .error e (ns.defineAll style records).reached ∧
      ∃ before record after, records = before ++ record :: after ∧
        (ns.defineAll style before).error? = none ∧
        (ns.defineAll style before).reached.define style record = .error e ∧
        (ns.defineAll style records).reached = (ns.defineAll style before).reached := by
  have hconfined (record : Record) (defined : Namespace)
      (hdefined : ns.define style record = .ok defined) :
      ∃ footprint, record.HasFootprint footprint ∧ footprint.Confines ns defined := by
    obtain ⟨definition, hrecord, rfl⟩ := define_eq_ok_iff.mp hdefined
    exact ⟨definition.footprint, Definition.hasFootprint_of_ofRecord hrecord,
      confines_apply style ns definition⟩
  refine ⟨fun record => ⟨fun e => ?_, fun e hfails => ?_, fun defined hdefined => ⟨?_,
    hconfined record defined hdefined, fun label hkind => ?_⟩⟩,
    fun records e hfails => ⟨?_, exists_failing_of_defineAll hfails⟩⟩
  · have hrecord : Definition.ofRecord style record = .error e ↔ _ :=
      Definition.ofRecord_eq_error_iff
    rw [← hrecord, define]
    cases Definition.ofRecord style record <;> simp
  · rw [run_defineInPlace, hfails]
  · rw [run_defineInPlace, hdefined]
  · obtain ⟨footprint, hfootprint, hconfines⟩ := hconfined record defined hdefined
    obtain rfl := hfootprint.eq_ofNothing hkind
    exact hconfines.eq_of_ofNothing
  · rw [run_forM_defineInPlace, hfails]

end Namespace

end Stubgen
