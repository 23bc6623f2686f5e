import Stubgen.Proofs.Namespace.Integrity
import Stubgen.Proofs.Namespace.Provenance
import Stubgen.Proofs.Override.Telling
import Mathlib.Data.List.Induction

/-!
# What overrides change

The wrappers of a set are applied one after the other, and several of them may be for the same
callable. A wrapper either gives a callable the whole signature that it tells or leaves it alone,
so of the wrappers for one callable the last that tells a signature decides. This file follows the
application turn by turn, says what no turn touches, and concludes that a set that is applied
again changes nothing.
-/

namespace Stubgen

/-- What is written before the parameters of a callable at a place: the receiver of a method. -/
def NativeTarget.receivers : NativeTarget → List String
  | .methodOf .. => ["self"]
  | .functionNamed _ | .classNamed _ => []

/-! ## Written parameters -/

/-- A function or a method as it is kept with its written parameters, the receiver among them, and
with its indentation, by which a method is known. -/
structure WrittenCallable where
  name : String
  types : List TypedName
  parameters : List String
  returns : String
  comments : List String
  indent : Nat

/-- The callable with other parameters. What is indented keeps its receiver. -/
def WrittenCallable.setTypes (callable : WrittenCallable) (types : List TypedName) :
    WrittenCallable :=
  let receivers := if 0 < callable.indent then ["self"] else []
  { callable with types := types, parameters := receivers ++ types.map TypedName.name }

/-- A callable as it is written. -/
def Callable.written (callable : Callable) : WrittenCallable :=
  ⟨callable.name, callable.types, callable.parameters, callable.returns, callable.comments,
    callable.indent⟩

/-- A callable gets other parameters as the written one does. -/
theorem Callable.written_withTypes (callable : Callable) (types : List TypedName) :
    (callable.withTypes types).written = callable.written.setTypes types := by
  obtain ⟨name, isMethod, oldTypes, explicit, returns, comments⟩ := callable
  cases isMethod <;> rfl

/-- A callable gets another signature as the written one does. -/
theorem Callable.written_withSignature (callable : Callable) (types : List TypedName)
    (returns : String) :
    (callable.withSignature types returns).written =
      { callable.written.setTypes types with returns := returns } := by
  rw [← written_withTypes]
  rfl

/-! ## The wrappers of one callable -/

namespace Override

/-- The signature that a wrapper tells, if both its parameters and its result are understood. -/
def signature? (override : Override) : Option (List TypedName × String) :=
  match override.parameters?, override.returns? with
  | some types, some returns => some (types, returns)
  | _, _ => none

/-- The last signature that wrappers tell. -/
def lastSignature? (overrides : List Override) : Option (List TypedName × String) :=
  (overrides.filterMap signature?).getLast?

/-- The callable with a signature, if there is one. -/
def sign (signature? : Option (List TypedName × String)) (callable : Callable) : Callable :=
  match signature? with
  | some (types, returns) => callable.withSignature types returns
  | none => callable

/-- The signature of a wrapper is the one that it tells. -/
theorem signature?_eq_some_iff {override : Override} {types : List TypedName} {returns : String} :
    override.signature? = some (types, returns) ↔ override.Tells types returns := by
  rw [← tells_iff]
  unfold signature?
  cases override.parameters? with
  | none => simp
  | some _ => cases override.returns? <;> simp

/-- A wrapper tells one signature at most. -/
theorem Tells.unique {override : Override} {types otherTypes : List TypedName}
    {returns otherReturns : String} (h : override.Tells types returns)
    (hother : override.Tells otherTypes otherReturns) :
    types = otherTypes ∧ returns = otherReturns := by
  have hsame := (signature?_eq_some_iff.mpr h).symm.trans (signature?_eq_some_iff.mpr hother)
  exact Prod.mk.inj (Option.some.inj hsame)

/-- There is no signature if the wrapper tells none. -/
theorem signature?_eq_none_iff {override : Override} :
    override.signature? = none ↔ ∀ types returns, ¬override.Tells types returns := by
  simp only [Option.eq_none_iff_forall_ne_some, ne_eq, Prod.forall, signature?_eq_some_iff]

/-- A wrapper gives a callable the signature that it tells. -/
theorem refine_eq_sign (override : Override) :
    override.refine = sign override.signature? := by
  funext callable
  unfold refine signature?
  cases override.parameters? with
  | none => rfl
  | some types => cases override.returns? <;> rfl

/-- Of wrappers for one callable, the last that tells a signature decides. -/
theorem foldl_refine (overrides : List Override) (callable : Callable) :
    overrides.foldl (fun callable override => override.refine callable) callable =
      sign (lastSignature? overrides) callable := by
  induction overrides using List.reverseRecOn with
  | nil => rfl
  | append_singleton overrides override ih =>
    rw [List.foldl_append, ih]
    simp only [List.foldl_cons, List.foldl_nil, refine_eq_sign, lastSignature?,
      List.filterMap_append, List.getLast?_append]
    cases hsignature : override.signature? with
    | none => simp [sign, hsignature]
    | some signature =>
      -- Whatever the earlier wrappers have told is replaced as a whole.
      simp only [List.filterMap_cons_some hsignature, List.filterMap_nil,
        List.getLast?_singleton, Option.some_or]
      cases (overrides.filterMap signature?).getLast? <;> rfl

/-- A signature that is given once more changes nothing. -/
theorem sign_sign (signature? : Option (List TypedName × String)) (callable : Callable) :
    sign signature? (sign signature? callable) = sign signature? callable := by
  cases signature? <;> rfl

end Override

namespace Namespace

/-- A callable with another signature: its parameters are the new ones without defaults, after the
receiver if it is a method. Its name, its kind and its comments are as before. As it is written, its
types and its result are set, and nothing else. -/
structure SignedAnew (target : NativeTarget) (types : List TypedName) (returns : String)
    (old new : Callable) : Prop where
  written_eq : new.written = { old.written.setTypes types with returns := returns }
  types_eq : new.types = types
  parameters_eq : new.parameters = target.receivers ++ types.map TypedName.name
  returns_eq : new.returns = returns
  revision : new.IsRevisionOf old

/-- What a wrapper does in its turn, with the native identifier that it is for. -/
inductive Turn (native : String) (override : Override) (ns next : Namespace) : Prop where
  /-- The identifier reaches no callable, and the wrapper is passed over. -/
  | unreached (hnone : ns.callable? native = none) (hsame : next = ns)
  /-- The wrapper tells no signature, and nothing changes. -/
  | untold {callable : Callable} (hreached : ns.callable? native = some callable)
      (huntold : ∀ types returns, ¬override.Tells types returns) (hsame : next = ns)
  /-- The wrapper tells a signature, and the callable that is reached gets it, but no other. -/
  | told {target : NativeTarget} {old new : Callable} {types : List TypedName} {returns : String}
      (hreached : ns.callable? native = some old)
      (hrefers : ns.natives.get? native = some target)
      (htells : override.Tells types returns)
      (hold : ns.at? target = some old) (hnew : next.at? target = some new)
      (hsigned : SignedAnew target types returns old new)
      (helsewhere : ∀ other, other ≠ target → next.at? other = ns.at? other)

variable {ns : Namespace}

/-! ## One turn -/

/-- A method is written with its receiver, and a function without one. -/
theorem Integrity.parameters_eq (h : ns.Integrity) {target : NativeTarget} {callable : Callable}
    (hthere : ns.at? target = some callable) :
    callable.parameters = target.receivers ++ callable.explicit := by
  cases target with
  | classNamed nativeName => exact nomatch hthere
  | functionNamed name =>
    have hfunction := (h.function_named name callable hthere).2
    simp [Callable.parameters, NativeTarget.receivers, hfunction]
  | methodOf nativeName name =>
    have hmethod := (h.method_named nativeName name callable hthere).2
    simp [Callable.parameters, NativeTarget.receivers, receiver, hmethod]

/-- A revision that leaves the callable alone that it is for changes nothing. -/
theorem reviseCallable_eq_self {native : String} {revise : Callable → Callable}
    (hsame : ∀ callable, ns.callable? native = some callable → revise callable = callable) :
    ns.reviseCallable native revise = ns := by
  refine ext_at? (fun target => ?_) (fun nativeName => ?_) ?_ ?_
  · rw [at?_reviseCallable]
    split
    · next hrefers =>
      cases hthere : ns.at? target with
      | none => rfl
      | some callable =>
        have hreached : ns.callable? native = some callable := by
          rw [callable?_eq_bind_at?, hrefers, Option.bind_some, hthere]
        rw [Option.map_some, hsame callable hreached]
    · rfl
  · rw [outline?_reviseCallable]
  · exact constants_reviseCallable ns native revise
  · exact natives_reviseCallable ns native revise

/-- A wrapper replaces the signature of the callable that its identifier reaches as a whole, or
changes nothing. -/
theorem turn_reviseCallable (h : ns.Integrity) (native : String) (override : Override) :
    Turn native override ns (ns.reviseCallable native override.refine) := by
  cases hreached : ns.callable? native with
  | none =>
    have hsame : ns.reviseCallable native override.refine = ns :=
      reviseCallable_eq_self fun callable hother => nomatch hreached.symm.trans hother
    exact .unreached hreached hsame
  | some old =>
    cases hsignature : override.signature? with
    | none =>
      have hsame : ns.reviseCallable native override.refine = ns :=
        reviseCallable_eq_self fun callable _ => by rw [Override.refine_eq_sign, hsignature]; rfl
      exact .untold hreached (Override.signature?_eq_none_iff.mp hsignature) hsame
    | some signature =>
      obtain ⟨types, returns⟩ := signature
      have htells := Override.signature?_eq_some_iff.mp hsignature
      have hplace := hreached
      rw [callable?_eq_bind_at?, Option.bind_eq_some_iff] at hplace
      obtain ⟨target, hrefers, hold⟩ := hplace
      have hrefine : override.refine old = old.withSignature types returns := by
        rw [Override.refine_eq_sign, hsignature]
        rfl
      have hnew : (ns.reviseCallable native override.refine).at? target =
          some (old.withSignature types returns) := by
        rw [at?_reviseCallable, if_pos hrefers, hold, Option.map_some, hrefine]
      have hintegrity : (ns.reviseCallable native override.refine).Integrity :=
        (writes_reviseCallable h native (fun callable => (refine_name_and_kind override callable).1)
          fun callable => (refine_name_and_kind override callable).2).integrity h
      have hsigned : SignedAnew target types returns old (old.withSignature types returns) :=
        ⟨old.written_withSignature types returns, rfl, hintegrity.parameters_eq hnew, rfl,
          ⟨rfl, rfl, rfl⟩⟩
      refine .told hreached hrefers htells hold hnew hsigned fun other hother => ?_
      have helsewhere : ns.natives.get? native ≠ some other := by
        rw [hrefers]
        exact fun heq => hother (Option.some.inj heq).symm
      rw [at?_reviseCallable, if_neg helsewhere]

/-- In its turn, a wrapper that tells a signature gives it to the callable that it is for. -/
theorem Turn.exists_signedAnew {native : String} {override : Override} {next : Namespace}
    (h : Turn native override ns next) {target : NativeTarget} {old : Callable}
    (hrefers : ns.natives.get? native = some target) (hold : ns.at? target = some old)
    {types : List TypedName} {returns : String} (htells : override.Tells types returns) :
    ∃ new, next.at? target = some new ∧ SignedAnew target types returns old new := by
  cases h with
  | unreached hnone =>
    rw [callable?_eq_bind_at?, hrefers, Option.bind_some, hold] at hnone
    exact nomatch hnone
  | untold _ huntold => exact absurd htells (huntold types returns)
  | told _ hrefers' htells' hold' hnew hsigned =>
    obtain rfl := Option.some.inj (hrefers.symm.trans hrefers')
    obtain rfl := Option.some.inj (hold.symm.trans hold')
    obtain ⟨rfl, rfl⟩ := htells.unique htells'
    exact ⟨_, hnew, hsigned⟩

/-! ## All turns -/

/-- Applies wrappers, each under its native identifier, one after the other. -/
def applyWrappers (ns : Namespace) (wrappers : List (String × Override)) : Namespace :=
  wrappers.foldl (fun ns entry => ns.reviseCallable entry.1 entry.2.refine) ns

/-- The wrappers that are for the callable at a place, in their order. -/
def wrappersFor (ns : Namespace) (target : NativeTarget) (wrappers : List (String × Override)) :
    List Override :=
  (wrappers.filter fun entry => ns.natives.get? entry.1 = some target).map Prod.snd

/-- A turn of the application that also counts the wrappers that reach a callable. -/
def overrideTurn (state : Namespace × Nat) (entry : String × Override) : Namespace × Nat :=
  match state.1.callable? entry.1 with
  | none => state
  | some _ => (state.1.reviseCallable entry.1 entry.2.refine, state.2 + 1)

/-- What no revision of a callable changes, wrappers do not change. -/
theorem applyWrappers_invariant {α : Sort*} (view : Namespace → α)
    (hview : ∀ ns native revise, view (reviseCallable ns native revise) = view ns)
    (ns : Namespace) (wrappers : List (String × Override)) :
    view (ns.applyWrappers wrappers) = view ns := by
  induction wrappers generalizing ns with
  | nil => rfl
  | cons entry rest ih => exact (ih _).trans (hview ns entry.1 entry.2.refine)

/-- Wrappers move no identifier. -/
@[simp] theorem natives_applyWrappers (ns : Namespace) (wrappers : List (String × Override)) :
    (ns.applyWrappers wrappers).natives = ns.natives :=
  applyWrappers_invariant natives natives_reviseCallable ns wrappers

/-- Wrappers change nothing that is known of a class apart from its methods. -/
@[simp] theorem outline?_applyWrappers (ns : Namespace) (wrappers : List (String × Override)) :
    (ns.applyWrappers wrappers).outline? = ns.outline? :=
  applyWrappers_invariant outline? outline?_reviseCallable ns wrappers

/-- Wrappers change no constant. -/
@[simp] theorem constants_applyWrappers (ns : Namespace) (wrappers : List (String × Override)) :
    (ns.applyWrappers wrappers).constants = ns.constants :=
  applyWrappers_invariant constants constants_reviseCallable ns wrappers

/-- An identifier reaches a callable after wrappers exactly if it did before. -/
theorem isSome_callable?_applyWrappers (ns : Namespace) (wrappers : List (String × Override))
    (native : String) :
    ((ns.applyWrappers wrappers).callable? native).isSome = (ns.callable? native).isSome := by
  refine applyWrappers_invariant (fun ns => (ns.callable? native).isSome) ?_ ns wrappers
  intro ns other revise
  exact isSome_callable?_reviseCallable ns other revise native

/-- Every callable gets the last signature that the wrappers for it tell. -/
theorem at?_applyWrappers (ns : Namespace) (wrappers : List (String × Override))
    (target : NativeTarget) :
    (ns.applyWrappers wrappers).at? target =
      (ns.at? target).map
        (Override.sign (Override.lastSignature? (ns.wrappersFor target wrappers))) := by
  suffices hfold : (ns.applyWrappers wrappers).at? target =
      (ns.at? target).map fun callable =>
        (ns.wrappersFor target wrappers).foldl
          (fun callable override => override.refine callable) callable by
    simpa only [Override.foldl_refine] using hfold
  induction wrappers generalizing ns with
  | nil => simp [applyWrappers, wrappersFor]
  | cons entry rest ih =>
    have hrest : (ns.applyWrappers (entry :: rest)).at? target =
        ((ns.reviseCallable entry.1 entry.2.refine).applyWrappers rest).at? target := rfl
    have hfor : (ns.reviseCallable entry.1 entry.2.refine).wrappersFor target rest =
        ns.wrappersFor target rest := by
      simp only [wrappersFor, natives_reviseCallable]
    rw [hrest, ih, hfor, at?_reviseCallable]
    by_cases hrefers : ns.natives.get? entry.1 = some target
    · simp [wrappersFor, hrefers, Function.comp_def]
    · simp [wrappersFor, hrefers]

/-- To apply and to count turn by turn is to apply all wrappers and to count those that reach a
callable at the outset. -/
theorem foldl_overrideTurn (ns : Namespace) (count : Nat) (wrappers : List (String × Override)) :
    wrappers.foldl overrideTurn (ns, count) =
      (ns.applyWrappers wrappers,
        count + wrappers.countP fun entry => (ns.callable? entry.1).isSome) := by
  induction wrappers generalizing ns count with
  | nil => rfl
  | cons entry rest ih =>
    have hcount : (rest.countP fun later =>
          ((ns.reviseCallable entry.1 entry.2.refine).callable? later.1).isSome) =
        rest.countP fun later => (ns.callable? later.1).isSome := by
      simp only [isSome_callable?_reviseCallable]
    have happly : ns.applyWrappers (entry :: rest) =
        (ns.reviseCallable entry.1 entry.2.refine).applyWrappers rest := rfl
    rw [List.foldl_cons, happly, List.countP_cons]
    cases hreached : ns.callable? entry.1 with
    | none =>
      have hturn : overrideTurn (ns, count) entry = (ns, count) := by
        simp only [overrideTurn, hreached]
      have hsame : ns.reviseCallable entry.1 entry.2.refine = ns :=
        reviseCallable_eq_self fun callable hother => nomatch hreached.symm.trans hother
      rw [hturn, ih, hsame]
      simp
    | some callable =>
      have hturn : overrideTurn (ns, count) entry =
          (ns.reviseCallable entry.1 entry.2.refine, count + 1) := by
        simp only [overrideTurn, hreached]
      rw [hturn, ih, hcount]
      simp [Nat.add_assoc, Nat.add_comm 1]

/-! ## Applying overrides again -/

/-- Wrappers that are applied once more change nothing. -/
theorem applyWrappers_applyWrappers (ns : Namespace) (wrappers : List (String × Override)) :
    (ns.applyWrappers wrappers).applyWrappers wrappers = ns.applyWrappers wrappers := by
  refine ext_at? (fun target => ?_) (fun nativeName => ?_) ?_ ?_
  · have hfor : (ns.applyWrappers wrappers).wrappersFor target wrappers =
        ns.wrappersFor target wrappers := by
      simp only [wrappersFor, natives_applyWrappers]
    rw [at?_applyWrappers, hfor, at?_applyWrappers, Option.map_map]
    congr 1
    funext callable
    exact Override.sign_sign _ callable
  · rw [outline?_applyWrappers]
  · rw [constants_applyWrappers]
  · rw [natives_applyWrappers]

/-- In every namespace that operations make, a set of overrides is applied turn by turn. The number
that is told is that of the wrappers that reach a callable; each of them replaces the signature of
this callable as a whole, by the one that its text tells, or changes nothing if it tells none.
Names, kinds and comments of callables, the callables that no wrapper is for, everything else that
is known of classes, the constants and the identifiers stay as they are, and the set that is applied
once more changes nothing and tells the same number. -/
theorem overrides_all_or_nothing (operations : List Operation) (set : OverrideSet) :
    let ns := ofOperations operations
    let refined := ns.applyOverrides set
    set.wrappers.entries.foldl overrideTurn (ns, 0) = (refined, ns.matchedOverrides set) ∧
      (∀ before native override after,
        set.wrappers.entries = before ++ (native, override) :: after →
          Turn native override (ns.applyWrappers before)
            (ns.applyWrappers (before ++ [(native, override)]))) ∧
      (∀ target, Option.Rel (fun old new => Callable.IsRevisionOf new old) (ns.at? target)
        (refined.at? target)) ∧
      (∀ target, (∀ native ∈ set.wrappers.keys, ns.natives.get? native ≠ some target) →
        refined.at? target = ns.at? target) ∧
      refined.outline? = ns.outline? ∧ refined.constants = ns.constants ∧
      refined.natives = ns.natives ∧
      refined.applyOverrides set = refined ∧
      refined.matchedOverrides set = ns.matchedOverrides set := by
  intro ns refined
  have h : ns.Integrity := integrity_ofOperations operations
  have hrefined : refined = ns.applyWrappers set.wrappers.entries := rfl
  refine ⟨?_, ?_, (ns.undisturbed_applyOverrides set).places, ?_, ?_, ?_, ?_, ?_, ?_⟩
  · rw [foldl_overrideTurn, Nat.zero_add]
    rfl
  · intro before native override after _
    have hbefore : (ns.applyWrappers before).Integrity :=
      (writes_applyOverrides h ⟨⟨before⟩, .empty, .empty, []⟩).integrity h
    have hturn := turn_reviseCallable hbefore native override
    rwa [applyWrappers, applyWrappers, List.foldl_append]
  · intro target hunnamed
    refine (at?_applyOverrides_or ns set target).2.resolve_right ?_
    rintro ⟨native, hmem, hrefers⟩
    exact hunnamed native hmem hrefers
  · rw [hrefined, outline?_applyWrappers]
  · rw [hrefined, constants_applyWrappers]
  · rw [hrefined, natives_applyWrappers]
  · exact ns.applyWrappers_applyWrappers set.wrappers.entries
  · simp only [matchedOverrides, hrefined, isSome_callable?_applyWrappers]

/-- A function with a wrapper that parses keyword arguments, a method with one that has no
arguments, a function with one the result of which is not understood, and a wrapper for nothing. -/
theorem overrides_all_or_nothing_of_styles :
    let operations : List Operation :=
      [.addFunction ⟨"f", false, [⟨"a", "gint"⟩], ["a=1"], "none", ["C impl: f()"]⟩ rfl (some "f"),
        .addMethod "GtkA" ⟨"m", true, [⟨"b", "gint"⟩], ["b"], "none", []⟩ rfl (some "gtk_a_m"),
        .addFunction ⟨"g", false, [⟨"c", "gint"⟩], ["c"], "none", []⟩ rfl (some "g")]
    let keywords : Override := ⟨.keywords, "_wrap_f(self) \x7b if (!" ++
      "PyArg_ParseTupleAndKeywords(args, kwargs, \"iO:f\", kwlist, &n, &o)) return NULL; " ++
      "return Py_None; \x7d"⟩
    let bare : Override := ⟨.noArguments, "_wrap_gtk_a_m(self) \x7b return PyInt_FromLong(1); \x7d"⟩
    let unknown : Override := ⟨.noArguments, "_wrap_g(self) \x7b return NULL; \x7d"⟩
    let set : OverrideSet := ⟨⟨[("f", keywords), ("gtk_a_m", bare), ("g", unknown), ("h", bare)]⟩,
      .empty, .empty, []⟩
    let ns := ofOperations operations
    let first := ns.applyWrappers [("f", keywords)]
    let second := ns.applyWrappers [("f", keywords), ("gtk_a_m", bare)]
    (keywords.Tells [⟨"n", "!integer"⟩, ⟨"o", "!object"⟩] "none" ∧ bare.Tells [] "int" ∧
        ∀ types returns, ¬unknown.Tells types returns) ∧
      (∃ old new, ns.at? (.functionNamed "f") = some old ∧
        first.at? (.functionNamed "f") = some new ∧
        SignedAnew (.functionNamed "f") [⟨"n", "!integer"⟩, ⟨"o", "!object"⟩] "none" old new) ∧
      (∃ old new, first.at? (.methodOf "GtkA" "m") = some old ∧
        second.at? (.methodOf "GtkA" "m") = some new ∧
        SignedAnew (.methodOf "GtkA" "m") [] "int" old new ∧ new.parameters = ["self"]) ∧
      ns.matchedOverrides set = 3 ∧
      (ns.applyOverrides set).applyOverrides set = ns.applyOverrides set := by
  intro operations keywords bare unknown set ns first second
  obtain ⟨-, hturns, -, -, -, -, -, hagain, -⟩ := overrides_all_or_nothing operations set
  have hkeywords : keywords.Tells [⟨"n", "!integer"⟩, ⟨"o", "!object"⟩] "none" :=
    Override.tells_iff.mp ⟨by decide +kernel, by decide +kernel⟩
  have hbare : bare.Tells [] "int" := Override.tells_iff.mp ⟨rfl, by decide +kernel⟩
  have hunknown : ∀ types returns, ¬unknown.Tells types returns :=
    Override.signature?_eq_none_iff.mp (by decide +kernel)
  have hfirst : Turn "f" keywords ns first := hturns [] "f" keywords _ rfl
  have hsecond : Turn "gtk_a_m" bare first second := hturns [("f", keywords)] "gtk_a_m" bare _ rfl
  obtain ⟨function, hfunction, hfunctionSigned⟩ := hfirst.exists_signedAnew rfl rfl hkeywords
  have hnatives : first.natives.get? "gtk_a_m" = some (.methodOf "GtkA" "m") := by
    rw [natives_applyWrappers]
    rfl
  obtain ⟨old, hold⟩ : ∃ old, first.at? (.methodOf "GtkA" "m") = some old := ⟨_, rfl⟩
  obtain ⟨method, hmethod, hmethodSigned⟩ := hsecond.exists_signedAnew hnatives hold hbare
  exact ⟨⟨hkeywords, hbare, hunknown⟩, ⟨_, function, rfl, hfunction, hfunctionSigned⟩,
    ⟨old, method, hold, hmethod, hmethodSigned, hmethodSigned.parameters_eq⟩, by decide +kernel,
    hagain⟩

end Namespace

end Stubgen
