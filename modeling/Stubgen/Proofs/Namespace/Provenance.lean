import Stubgen.Proofs.Namespace.Lookup
import Stubgen.Proofs.Namespace.Succession
import Mathlib.Data.Option.Basic
import Mathlib.Data.List.Induction

/-!
# Which definition a native identifier reaches

An identifier is registered for a place, not for the definition that brings it. A definition
that is refused registers nothing; but one that is taken up and gives way later leaves its
identifier behind, and the identifier then reaches whatever has taken the place. This file keeps
a history of the definitions that were taken up beside a run of operations. From it one can tell
which definition an identifier reaches, and exactly when that is the one that brought it.
-/

namespace Stubgen

/-- A callable is a definition, the signature of which may have been revised. -/
structure Callable.IsRevisionOf (callable definition : Callable) : Prop where
  name_eq : callable.name = definition.name
  isMethod_eq : callable.isMethod = definition.isMethod
  comments_eq : callable.comments = definition.comments

/-- A definition is a revision of itself. -/
theorem Callable.IsRevisionOf.refl (callable : Callable) : callable.IsRevisionOf callable :=
  ⟨rfl, rfl, rfl⟩

/-- A revision of a revision is a revision. -/
theorem Callable.IsRevisionOf.trans {callable middle definition : Callable}
    (h : callable.IsRevisionOf middle) (h' : middle.IsRevisionOf definition) :
    callable.IsRevisionOf definition where
  name_eq := h.name_eq.trans h'.name_eq
  isMethod_eq := h.isMethod_eq.trans h'.isMethod_eq
  comments_eq := h.comments_eq.trans h'.comments_eq

/-- A definition that a namespace has taken up, and its place. -/
structure Arrival where
  target : NativeTarget
  contender : Contender

namespace Arrival

/-- The native identifier that a definition brought. -/
def native? (arrival : Arrival) : Option String :=
  arrival.contender.native?

/-- The last arrival of a kind. -/
def last? (kind : Arrival → Bool) (history : List Arrival) : Option Arrival :=
  history.reverse.find? kind

/-- The last definition that arrived at a place. -/
def lastAt? (target : NativeTarget) : List Arrival → Option Arrival :=
  last? fun arrival => arrival.target = target

/-- The last definition that brought a native identifier. -/
def lastWith? (native : String) : List Arrival → Option Arrival :=
  last? fun arrival => arrival.native? = some native

/-- The last definition that brought an identifier has given way to a later one. -/
def Superseded (native : String) (history : List Arrival) : Prop :=
  ∃ before carrier after, history = before ++ carrier :: after ∧
    carrier.native? = some native ∧ (∀ later ∈ after, later.native? ≠ some native) ∧
    ∃ later ∈ after, later.target = carrier.target

variable {kind : Arrival → Bool} {history : List Arrival} {native : String}

/-- The last arrival of a kind is one after which none of this kind came. -/
theorem last?_eq_some_iff {arrival : Arrival} : last? kind history = some arrival ↔
    kind arrival = true ∧ ∃ before after, history = before ++ arrival :: after ∧
      ∀ later ∈ after, kind later = false := by
  unfold last?
  rw [List.find?_eq_some_iff_append]
  refine and_congr_right fun _ => ?_
  constructor
  · rintro ⟨after, before, hsplit, hafter⟩
    refine ⟨before.reverse, after.reverse, ?_, ?_⟩
    · rw [← List.reverse_reverse history, hsplit]
      simp
    · simpa using hafter
  · rintro ⟨before, after, rfl, hafter⟩
    exact ⟨after.reverse, before.reverse, by simp, by simpa using hafter⟩

/-- The last arrival of a kind is among the later ones if there is one of this kind. -/
theorem last?_append (kind : Arrival → Bool) (history later : List Arrival) :
    last? kind (history ++ later) = (last? kind later).or (last? kind history) := by
  simp [last?, List.find?_append]

/-- A new arrival is the last of its kind and of no other. -/
theorem last?_append_singleton (kind : Arrival → Bool) (history : List Arrival)
    (arrival : Arrival) :
    last? kind (history ++ [arrival]) =
      if kind arrival = true then some arrival else last? kind history := by
  rw [last?_append]
  cases hkind : kind arrival <;> simp [last?, hkind]

/-- If something of a kind came among the later arrivals, so did the last of this kind. -/
theorem mem_of_last?_append {later : List Arrival} {arrival other : Arrival}
    (hother : other ∈ later) (hkind : kind other = true)
    (hlast : last? kind (history ++ later) = some arrival) : arrival ∈ later := by
  have hthere : (last? kind later).isSome = true := by
    rw [last?, List.find?_isSome]
    exact ⟨other, List.mem_reverse.mpr hother, hkind⟩
  obtain ⟨found, hfound⟩ := Option.isSome_iff_exists.mp hthere
  rw [last?_append, hfound, Option.some_or] at hlast
  obtain rfl := Option.some.inj hlast
  exact List.mem_reverse.mp (List.mem_of_find?_eq_some hfound)

/-- The place of the last definition that brought an identifier is held by a definition that
brought it exactly if that definition has not given way. -/
theorem native?_lastAt?_iff {carrier holder : Arrival}
    (hcarrier : lastWith? native history = some carrier)
    (hholder : lastAt? carrier.target history = some holder) :
    holder.native? = some native ↔ ¬Superseded native history := by
  obtain ⟨hnative, before, after, hsplit, hafter⟩ := last?_eq_some_iff.mp hcarrier
  simp only [decide_eq_true_eq, decide_eq_false_iff_not] at hnative hafter
  constructor
  · rintro hholderNative ⟨before', carrier', after', hsplit', hnative', hafter', later, hlater,
      htarget⟩
    have hcarrier' : lastWith? native history = some carrier' :=
      last?_eq_some_iff.mpr ⟨by simpa using hnative', before', after', hsplit',
        by simpa using hafter'⟩
    obtain rfl : carrier = carrier' := Option.some.inj (hcarrier.symm.trans hcarrier')
    rw [hsplit', List.append_cons] at hholder
    have hmem : holder ∈ after' := mem_of_last?_append hlater (by simpa using htarget) hholder
    exact hafter' holder hmem hholderNative
  · intro hkept
    have hstays : ∀ later ∈ after, later.target ≠ carrier.target := by
      intro later hlater htarget
      exact hkept ⟨before, carrier, after, hsplit, hnative, hafter, later, hlater, htarget⟩
    have hlast : lastAt? carrier.target history = some carrier :=
      last?_eq_some_iff.mpr ⟨by simp, before, after, hsplit, by simpa using hstays⟩
    obtain rfl : holder = carrier := Option.some.inj (hholder.symm.trans hlast)
    exact hnative

end Arrival

namespace Namespace

/-- The definition that a namespace takes up in an operation. -/
def Operation.arrival? (ns : Namespace) : Operation → Option Arrival
  | .addFunction function _ native? =>
    if ns.acceptsFunction function then
      some ⟨.functionNamed function.name, ⟨function, native?⟩⟩
    else none
  | .addMethod nativeName method _ native? =>
    if ns.acceptsMethod nativeName method then
      some ⟨.methodOf nativeName method.name, ⟨method, native?⟩⟩
    else none
  | .confirmClass .. | .ensureClass _ | .addConstant .. | .setTypes .. | .applyOverrides _
  | .augment .. => none

/-- The definitions that a namespace takes up in a run of operations, in their order. -/
def arrivals (ns : Namespace) : List Operation → List Arrival
  | [] => []
  | operation :: rest =>
    (operation.arrival? ns).toList ++ arrivals (ns.perform operation) rest

/-- An identifier keeps its target or comes to refer to a class. -/
def KeepsNative (ns next : Namespace) (native : String) : Prop :=
  next.natives.get? native = ns.natives.get? native ∨
    ∃ nativeName, next.natives.get? native = some (.classNamed nativeName)

/-- No definition arrives: callables are at most revised, and identifiers at most come to refer
to classes. -/
structure Undisturbed (ns next : Namespace) : Prop where
  places : ∀ target, Option.Rel (fun old new => Callable.IsRevisionOf new old) (ns.at? target)
    (next.at? target)
  natives : ∀ native, ns.KeepsNative next native

/-- A definition arrives at its place, and its identifier comes to refer to it. -/
structure Receives (arrival : Arrival) (ns next : Namespace) : Prop where
  place : next.at? arrival.target = some arrival.contender.callable
  elsewhere : ∀ target, target ≠ arrival.target → next.at? target = ns.at? target
  native : ∀ native, arrival.native? = some native →
    next.natives.get? native = some arrival.target
  other_natives : ∀ native, arrival.native? ≠ some native → ns.KeepsNative next native

/-- A history tells what is in a namespace: at every place the last definition that arrived
there, and every identifier, unless it names a class, where the last definition that brought it
arrived. -/
structure Remembers (history : List Arrival) (ns : Namespace) : Prop where
  places : ∀ target,
    Option.Rel (fun arrival callable => Callable.IsRevisionOf callable arrival.contender.callable)
      (Arrival.lastAt? target history) (ns.at? target)
  natives : ∀ native target, ns.natives.get? native = some target →
    (∃ nativeName, target = .classNamed nativeName) ∨
      ∃ carrier, Arrival.lastWith? native history = some carrier ∧ carrier.target = target

variable {ns next : Namespace} {history : List Arrival}

/-! ## One operation -/

/-- What is at a place is a revision of itself. -/
theorem rel_isRevisionOf_refl (callable? : Option Callable) :
    Option.Rel (fun old new => Callable.IsRevisionOf new old) callable? callable? := by
  cases callable? with
  | none => exact .none
  | some callable => exact .some (.refl callable)

/-- What is at a place stays a revision of what arrived there when it is revised. -/
theorem rel_isRevisionOf_trans {α : Type} (definitionOf : α → Callable) {first? : Option α}
    {old? new? : Option Callable}
    (h : Option.Rel (fun first old => Callable.IsRevisionOf old (definitionOf first)) first? old?)
    (h' : Option.Rel (fun old new => Callable.IsRevisionOf new old) old? new?) :
    Option.Rel (fun first new => Callable.IsRevisionOf new (definitionOf first)) first? new? := by
  cases h with
  | none =>
    cases h'
    exact .none
  | some hold =>
    cases h' with
    | some hnew => exact .some (hnew.trans hold)

/-- Nothing is disturbed where every callable and every identifier is as before. -/
theorem undisturbed_of_eq (hplaces : ∀ target, next.at? target = ns.at? target)
    (hnatives : ∀ native, ns.KeepsNative next native) : ns.Undisturbed next where
  places := by
    intro target
    rw [hplaces]
    exact rel_isRevisionOf_refl _
  natives := hnatives

/-- A revision disturbs nothing. -/
theorem undisturbed_reviseCallable (ns : Namespace) (native : String)
    {revise : Callable → Callable}
    (hrevise : ∀ callable, (revise callable).IsRevisionOf callable) :
    ns.Undisturbed (ns.reviseCallable native revise) where
  places := by
    intro target
    rw [at?_reviseCallable]
    split
    · cases ns.at? target with
      | none => exact .none
      | some callable => exact .some (hrevise callable)
    · exact rel_isRevisionOf_refl _
  natives := fun other => .inl (by rw [natives_reviseCallable])

/-- Overrides change only what their identifiers refer to, and they move no identifier. -/
theorem at?_applyOverrides_or (ns : Namespace) (set : OverrideSet) (target : NativeTarget) :
    (ns.applyOverrides set).natives = ns.natives ∧
      ((ns.applyOverrides set).at? target = ns.at? target ∨
        ∃ native ∈ set.wrappers.keys, ns.natives.get? native = some target) := by
  unfold applyOverrides Ledger.keys
  induction set.wrappers.entries generalizing ns with
  | nil => exact ⟨rfl, .inl rfl⟩
  | cons entry rest ih =>
    obtain ⟨hnatives, hrest⟩ := ih (ns.reviseCallable entry.1 entry.2.refine)
    rw [natives_reviseCallable] at hnatives hrest
    refine ⟨hnatives, ?_⟩
    rcases hrest with hrest | ⟨native, hmem, hrefers⟩
    · rw [at?_reviseCallable] at hrest
      split at hrest
      · next hrefers => exact .inr ⟨entry.1, by simp, hrefers⟩
      · exact .inl hrest
    · exact .inr ⟨native, List.mem_cons_of_mem _ hmem, hrefers⟩

/-- A wrapper tells the signature of a callable and nothing else. -/
theorem refine_isRevisionOf (override : Override) (callable : Callable) :
    (override.refine callable).IsRevisionOf callable := by
  unfold Override.refine
  split
  · exact ⟨rfl, rfl, rfl⟩
  · exact .refl callable

/-- Overrides disturb nothing. -/
theorem undisturbed_applyOverrides (ns : Namespace) (set : OverrideSet) :
    ns.Undisturbed (ns.applyOverrides set) where
  places := by
    intro target
    unfold applyOverrides
    induction set.wrappers.entries generalizing ns with
    | nil => exact rel_isRevisionOf_refl _
    | cons entry rest ih =>
      have hentry := (ns.undisturbed_reviseCallable entry.1
        (refine_isRevisionOf entry.2)).places target
      exact rel_isRevisionOf_trans id hentry (ih _)
  natives := fun native => .inl (by rw [(at?_applyOverrides_or ns set (.classNamed native)).1])

/-- An operation in which no definition is taken up disturbs nothing. -/
theorem undisturbed_perform {operation : Operation} (hnone : operation.arrival? ns = none) :
    ns.Undisturbed (ns.perform operation) := by
  have hkeeps (native : String) : ns.KeepsNative ns native := .inl rfl
  cases operation with
  | confirmClass nativeName definition =>
    refine undisturbed_of_eq (at?_confirmClass ns nativeName definition) fun native => ?_
    unfold KeepsNative
    simp only [perform, get?_natives_confirmClass]
    split
    · exact .inr ⟨nativeName, rfl⟩
    · exact .inl rfl
  | ensureClass nativeName =>
    refine undisturbed_of_eq (at?_ensureClass ns nativeName) fun native => ?_
    unfold KeepsNative
    simp only [perform, get?_natives_ensureClass]
    split
    · exact .inr ⟨nativeName, rfl⟩
    · exact .inl rfl
  | addFunction function hfunction native? =>
    cases haccepts : ns.acceptsFunction function with
    | true => simp [Operation.arrival?, haccepts] at hnone
    | false =>
      rw [perform, addFunction_of_refuses haccepts]
      exact undisturbed_of_eq (fun _ => rfl) hkeeps
  | addMethod nativeName method hmethod native? =>
    cases haccepts : ns.acceptsMethod nativeName method with
    | true => simp [Operation.arrival?, haccepts] at hnone
    | false =>
      rw [perform, addMethod_of_refuses haccepts]
      exact undisturbed_of_eq (fun _ => rfl) hkeeps
  | addConstant name line => exact undisturbed_of_eq (fun target => by cases target <;> rfl) hkeeps
  | setTypes native types =>
    exact ns.undisturbed_reviseCallable native fun callable => ⟨rfl, rfl, rfl⟩
  | applyOverrides set => exact ns.undisturbed_applyOverrides set
  | augment introspector module =>
    simp only [perform, augmentFrom]
    rcases introspector.examine module with e | none | constants
    · exact undisturbed_of_eq (fun _ => rfl) hkeeps
    · exact undisturbed_of_eq (fun _ => rfl) hkeeps
    · obtain ⟨lines, hlines⟩ := exists_augment_eq ns constants
      simp only [hlines]
      exact undisturbed_of_eq (fun target => by cases target <;> rfl) hkeeps

/-- A definition that is taken up in an operation arrives at its place. -/
theorem receives_perform {operation : Operation} {arrival : Arrival}
    (harrival : operation.arrival? ns = some arrival) :
    Receives arrival ns (ns.perform operation) := by
  cases operation with
  | addFunction function hfunction native? =>
    obtain ⟨haccepts, rfl⟩ : ns.acceptsFunction function = true ∧
        ⟨.functionNamed function.name, ⟨function, native?⟩⟩ = arrival := by
      simpa [Operation.arrival?] using harrival
    refine ⟨?_, fun target hne => ?_, fun native hnative => ?_, fun native hnative => ?_⟩
    · rw [perform, at?_addFunction, if_pos rfl]
      exact if_pos haccepts
    · rw [perform, at?_addFunction, if_neg hne]
    · rw [perform, get?_natives_addFunction, if_pos ⟨hnative, haccepts⟩]
    · rw [KeepsNative, perform, get?_natives_addFunction, if_neg fun h => hnative h.1]
      exact .inl rfl
  | addMethod nativeName method hmethod native? =>
    obtain ⟨haccepts, rfl⟩ : ns.acceptsMethod nativeName method = true ∧
        ⟨.methodOf nativeName method.name, ⟨method, native?⟩⟩ = arrival := by
      simpa [Operation.arrival?] using harrival
    refine ⟨?_, fun target hne => ?_, fun native hnative => ?_, fun native hnative => ?_⟩
    · rw [perform, at?_addMethod, if_pos rfl]
      exact if_pos haccepts
    · rw [perform, at?_addMethod, if_neg hne]
    · rw [perform, get?_natives_addMethod, if_pos ⟨hnative, haccepts⟩]
    · rw [KeepsNative, perform, get?_natives_addMethod, if_neg fun h => hnative h.1]
      split
      · exact .inr ⟨nativeName, rfl⟩
      · exact .inl rfl
  | confirmClass _ _ => exact nomatch harrival
  | ensureClass _ => exact nomatch harrival
  | addConstant _ _ => exact nomatch harrival
  | setTypes _ _ => exact nomatch harrival
  | applyOverrides _ => exact nomatch harrival
  | augment _ _ => exact nomatch harrival

/-! ## A run of operations -/

/-- Where nothing is disturbed, nothing is to be remembered. -/
theorem Remembers.of_undisturbed (h : Remembers history ns) (hundisturbed : ns.Undisturbed next) :
    Remembers history next where
  places := fun target =>
    rel_isRevisionOf_trans (fun arrival : Arrival => arrival.contender.callable) (h.places target)
      (hundisturbed.places target)
  natives := by
    intro native target hfound
    rcases hundisturbed.natives native with hsame | ⟨nativeName, hclass⟩
    · exact h.natives native target (hsame.symm.trans hfound)
    · exact .inl ⟨nativeName, Option.some.inj (hfound.symm.trans hclass)⟩

/-- A definition that arrives is remembered after the others. -/
theorem Remembers.of_receives (h : Remembers history ns) {arrival : Arrival}
    (hreceives : Receives arrival ns next) : Remembers (history ++ [arrival]) next where
  places := by
    intro target
    simp only [Arrival.lastAt?, Arrival.last?_append_singleton, decide_eq_true_eq]
    split
    · next htarget =>
      rw [← htarget, hreceives.place]
      exact .some (.refl _)
    · next htarget =>
      rw [hreceives.elsewhere target (Ne.symm htarget)]
      exact h.places target
  natives := by
    intro native target hfound
    simp only [Arrival.lastWith?, Arrival.last?_append_singleton, decide_eq_true_eq]
    split
    · next hnative =>
      rw [hreceives.native native hnative] at hfound
      exact .inr ⟨arrival, rfl, Option.some.inj hfound⟩
    · next hnative =>
      rcases hreceives.other_natives native hnative with hsame | ⟨nativeName, hclass⟩
      · exact h.natives native target (hsame.symm.trans hfound)
      · exact .inl ⟨nativeName, Option.some.inj (hfound.symm.trans hclass)⟩

/-- The arrivals of a longer run are those of the shorter one and what its last operation takes
up. -/
theorem arrivals_append_singleton (ns : Namespace) (operations : List Operation)
    (operation : Operation) :
    ns.arrivals (operations ++ [operation]) =
      ns.arrivals operations ++ (operation.arrival? (operations.foldl perform ns)).toList := by
  induction operations generalizing ns with
  | nil => simp [arrivals]
  | cons first rest ih => simp [arrivals, ih]

/-- The arrivals of a run tell what is in its namespace. -/
theorem remembers_ofOperations (operations : List Operation) :
    Remembers (empty.arrivals operations) (ofOperations operations) := by
  induction operations using List.reverseRecOn with
  | nil =>
    refine ⟨fun target => ?_, fun native target hfound => ?_⟩
    · cases target <;> exact .none
    · exact nomatch hfound
  | append_singleton operations operation ih =>
    rw [arrivals_append_singleton]
    simp only [ofOperations, List.foldl_append] at ih ⊢
    cases harrival : operation.arrival? (operations.foldl perform empty) with
    | none => simpa using ih.of_undisturbed (undisturbed_perform harrival)
    | some arrival => exact ih.of_receives (receives_perform harrival)

/-- What an identifier reaches is the last definition that arrived at its target, and this is
one that brought the identifier exactly if the last one to bring it has not given way. -/
theorem Remembers.reached (h : Remembers history ns) {native : String} {target : NativeTarget}
    {callable : Callable} (hrefers : ns.natives.get? native = some target)
    (hthere : ns.at? target = some callable) :
    ∃ holder, Arrival.lastAt? target history = some holder ∧
      callable.IsRevisionOf holder.contender.callable ∧
      (holder.native? = some native ↔ ¬Arrival.Superseded native history) := by
  rcases h.natives native target hrefers with ⟨nativeName, rfl⟩ | ⟨carrier, hcarrier, rfl⟩
  · exact nomatch hthere
  · have hplace := h.places carrier.target
    rw [hthere] at hplace
    generalize hlast : Arrival.lastAt? carrier.target history = holder? at hplace
    obtain ⟨hrevises⟩ := hplace
    exact ⟨_, rfl, hrevises, Arrival.native?_lastAt?_iff hcarrier hlast⟩

/-- In every run, an identifier that reaches a callable reaches the last definition that arrived
at its target, and this is one that brought the identifier exactly if the last definition to
bring it has not given way. So overrides change a callable only through an identifier that refers to
its place, and it is one that brought this identifier exactly if the last definition to bring it has
not given way. -/
theorem reaches_own_definition_iff (operations : List Operation) :
    let ns := ofOperations operations
    let history := empty.arrivals operations
    (∀ native callable, ns.callable? native = some callable →
      ∃ target holder, ns.natives.get? native = some target ∧
        Arrival.lastAt? target history = some holder ∧
        callable.IsRevisionOf holder.contender.callable ∧
        (holder.native? = some native ↔ ¬Arrival.Superseded native history)) ∧
      ∀ set target, (ns.applyOverrides set).at? target ≠ ns.at? target →
        ∃ holder, Arrival.lastAt? target history = some holder ∧
          ∃ native ∈ set.wrappers.keys, ns.natives.get? native = some target ∧
            (holder.native? = some native ↔ ¬Arrival.Superseded native history) := by
  intro ns history
  have hremembers : Remembers history ns := remembers_ofOperations operations
  constructor
  · intro native callable hreaches
    rw [callable?_eq_bind_at?, Option.bind_eq_some_iff] at hreaches
    obtain ⟨target, hrefers, hthere⟩ := hreaches
    obtain ⟨holder, hreached⟩ := hremembers.reached hrefers hthere
    exact ⟨target, holder, hrefers, hreached⟩
  · intro set target hchanged
    obtain ⟨native, hmem, hrefers⟩ := (at?_applyOverrides_or ns set target).2.resolve_left hchanged
    have hthere : ∃ callable, ns.at? target = some callable := by
      have hplaces := (ns.undisturbed_applyOverrides set).places target
      cases hplace : ns.at? target with
      | some callable => exact ⟨callable, rfl⟩
      | none =>
        -- Where there is nothing, there is nothing to revise.
        rw [hplace] at hplaces hchanged
        cases hafter : (ns.applyOverrides set).at? target with
        | none => exact absurd hafter hchanged
        | some callable =>
          rw [hafter] at hplaces
          exact nomatch hplaces
    obtain ⟨callable, hthere⟩ := hthere
    obtain ⟨holder, hlast, _, hiff⟩ := hremembers.reached hrefers hthere
    exact ⟨holder, hlast, native, hmem, hrefers, hiff⟩

/-- The identifier of a function that has given way reaches the function in its place, and what
is said about the one changes the other. -/
theorem superseded_native_reaches_successor :
    let function (names : List String) : Callable :=
      ⟨"f", false, names.map fun name => ⟨name, "int"⟩, names, "none", []⟩
    let operations : List Operation :=
      [.addFunction (function ["a"]) rfl (some "f_short"),
        .addFunction (function ["a", "b"]) rfl (some "f_long")]
    let ns := ofOperations operations
    Arrival.Superseded "f_short" (empty.arrivals operations) ∧
      Arrival.lastAt? (.functionNamed "f") (empty.arrivals operations) =
        some ⟨.functionNamed "f", ⟨function ["a", "b"], some "f_long"⟩⟩ ∧
      ns.callable? "f_short" = some (function ["a", "b"]) ∧
      (ns.perform (.setTypes "f_short" [⟨"x", "int"⟩])).callable? "f_long" =
        some (function ["x"]) := by
  refine ⟨⟨[], _, _, rfl, rfl, ?_, _, List.mem_singleton.mpr rfl, rfl⟩, rfl, rfl, rfl⟩
  decide

end Namespace

end Stubgen
