import Stubgen.Proofs.Namespace.Lookup
import Stubgen.Proofs.Namespace.Succession
import Mathlib.Data.List.Induction

/-!
# The longest of competing definitions

A definition gives way to a new one unless its written parameters outnumber the explicit ones of
the new one by more than one. The written parameters of a method begin with the receiver, which
makes up for this one: of competing methods the last of the longest is kept, in whatever order they
arrive. A function is written without a receiver, so it also gives way to a function with one
parameter less. The longest of competing functions is therefore taken up at any time, but it is kept
exactly if none that is one parameter shorter arrives later.
-/

namespace Stubgen

/-- The number of parameters of a callable, its receiver not counted. -/
def Callable.arity (callable : Callable) : Nat :=
  callable.explicit.length

namespace Contender

/-- A contender is the last of the longest among those before and after it. -/
structure LastLongest (before : List Contender) (longest : Contender) (after : List Contender) :
    Prop where
  /-- Those that arrive earlier are not longer. -/
  before_le : ∀ earlier ∈ before, earlier.callable.arity ≤ longest.callable.arity
  /-- Those that arrive later are shorter. -/
  after_lt : ∀ later ∈ after, later.callable.arity < longest.callable.arity

variable {holder new longest : Contender} {holder? : Option Contender}
  {before after contenders : List Contender}

/-- None of the contenders is longer. -/
theorem LastLongest.arity_le (h : LastLongest before longest after) {contender : Contender}
    (hmem : contender ∈ before ++ longest :: after) :
    contender.callable.arity ≤ longest.callable.arity := by
  rcases List.mem_append.mp hmem with hearlier | hmem
  · exact h.before_le contender hearlier
  · rcases List.mem_cons.mp hmem with rfl | hlater
    · exact Nat.le_refl _
    · exact Nat.le_of_lt (h.after_lt contender hlater)

/-- Among any contenders one is the last of the longest. -/
theorem exists_lastLongest (hsome : contenders ≠ []) :
    ∃ before longest after, contenders = before ++ longest :: after ∧
      LastLongest before longest after := by
  induction contenders with
  | nil => exact absurd rfl hsome
  | cons first rest ih =>
    cases rest with
    | nil => exact ⟨[], first, [], rfl, by simp, by simp⟩
    | cons second rest =>
      obtain ⟨before, longest, after, hsplit, hlongest⟩ := ih (List.cons_ne_nil _ _)
      rw [hsplit]
      by_cases hfirst : first.callable.arity ≤ longest.callable.arity
      · refine ⟨first :: before, longest, after, rfl, ?_, hlongest.after_lt⟩
        intro earlier hearlier
        rcases List.mem_cons.mp hearlier with rfl | hearlier
        · exact hfirst
        · exact hlongest.before_le earlier hearlier
      · refine ⟨[], first, before ++ longest :: after, rfl, by simp, ?_⟩
        intro later hlater
        have hle := hlongest.arity_le hlater
        omega

/-! ## What a holder gives way to -/

/-- Of two methods the earlier gives way exactly if it is not longer. -/
theorem yields_iff_of_method (hmethod : holder.callable.isMethod = true) :
    yields (some holder) new = true ↔ holder.callable.arity ≤ new.callable.arity := by
  have hwidth : width (some holder) = holder.callable.arity + 1 := by
    simp [width, Callable.parameters, hmethod, Callable.arity]
  rw [yields_iff, hwidth]
  exact Nat.add_le_add_iff_right

/-- Of two functions the earlier gives way exactly if it is longer by at most one parameter. -/
theorem yields_iff_of_function (hfunction : holder.callable.isMethod = false) :
    yields (some holder) new = true ↔ holder.callable.arity ≤ new.callable.arity + 1 := by
  have hwidth : width (some holder) = holder.callable.arity := by
    simp [width, Callable.parameters, hfunction, Callable.arity]
  rw [yields_iff, hwidth]
  rfl

/-- Every place gives way to a contender that is not shorter than its holder. -/
theorem yields_of_arity_le (hle : ∀ holder ∈ holder?, holder.callable.arity ≤ new.callable.arity) :
    yields holder? new = true := by
  rw [yields_iff]
  cases holder? with
  | none => exact Nat.zero_le _
  | some holder =>
    have hholder : holder.callable.arity ≤ new.callable.arity := hle holder rfl
    have hwidth : width (some holder) ≤ holder.callable.arity + 1 :=
      length_parameters_le holder.callable
    exact Nat.le_trans hwidth (Nat.succ_le_succ hholder)

/-! ## Who is left of many contenders -/

/-- The last holder of a place is the first one or one of the contenders. -/
theorem mem_of_lastHolder (h : lastHolder holder? contenders = some holder) :
    holder? = some holder ∨ holder ∈ contenders := by
  induction contenders generalizing holder? with
  | nil => exact .inl h
  | cons new rest ih =>
    rcases ih h with hsucceeds | hmem
    · unfold succeed at hsucceeds
      split at hsucceeds
      · obtain rfl := Option.some.inj hsucceeds
        exact .inr List.mem_cons_self
      · exact .inl hsucceeds
    · exact .inr (List.mem_cons_of_mem _ hmem)

/-- Whoever is left at a place that was free is one of the contenders. -/
theorem mem_of_lastHolder_none (h : lastHolder none contenders = some holder) :
    holder ∈ contenders :=
  (mem_of_lastHolder h).resolve_left nofun

/-- A contender is taken up if none that came before it is longer. -/
theorem yields_lastHolder_of_arity_le
    (hle : ∀ earlier ∈ contenders, earlier.callable.arity ≤ new.callable.arity) :
    yields (lastHolder none contenders) new = true :=
  yields_of_arity_le fun holder hholder => hle holder (mem_of_lastHolder_none hholder)

/-- A place that is held stays held. -/
theorem exists_lastHolder (holder : Contender) (contenders : List Contender) :
    ∃ last, lastHolder (some holder) contenders = some last := by
  induction contenders generalizing holder with
  | nil => exact ⟨holder, rfl⟩
  | cons new rest ih =>
    simp only [lastHolder, List.foldl_cons] at ih ⊢
    unfold succeed
    split
    · exact ih new
    · exact ih holder

/-- A holder that gives way to none of the contenders is left. -/
theorem lastHolder_of_refused (h : ∀ later ∈ contenders, yields holder? later = false) :
    lastHolder holder? contenders = holder? := by
  induction contenders with
  | nil => rfl
  | cons new rest ih =>
    rw [lastHolder, List.foldl_cons, succeed_of_refused (h new List.mem_cons_self)]
    exact ih fun later hlater => h later (List.mem_cons_of_mem _ hlater)

/-- The last of the longest is taken up, whoever has been left of those before it. -/
theorem lastHolder_of_lastLongest (hlongest : LastLongest before longest after) :
    lastHolder none (before ++ longest :: after) = lastHolder (some longest) after := by
  have htaken : yields (lastHolder none before) longest = true :=
    yields_lastHolder_of_arity_le hlongest.before_le
  have hsucceeds : succeed (lastHolder none before) longest = some longest :=
    succeed_of_yields htaken
  simp only [lastHolder, List.foldl_append, List.foldl_cons] at hsucceeds ⊢
  rw [hsucceeds]

/-- Among methods the last of the longest is left. -/
theorem lastHolder_of_methods (hlongest : LastLongest before longest after)
    (hmethod : longest.callable.isMethod = true) :
    lastHolder none (before ++ longest :: after) = some longest := by
  rw [lastHolder_of_lastLongest hlongest]
  apply lastHolder_of_refused
  intro later hlater
  have hshorter := hlongest.after_lt later hlater
  rw [← Bool.not_eq_true, yields_iff_of_method hmethod]
  omega

/-- A method is taken up exactly if none of the methods that came before is longer. -/
theorem yields_lastHolder_iff_of_methods
    (hmethods : ∀ contender ∈ contenders, contender.callable.isMethod = true) :
    yields (lastHolder none contenders) new = true ↔
      ∀ earlier ∈ contenders, earlier.callable.arity ≤ new.callable.arity := by
  constructor
  · intro htaken earlier hearlier
    obtain ⟨before, longest, after, rfl, hlongest⟩ :=
      exists_lastLongest (List.ne_nil_of_mem hearlier)
    have hmethod : longest.callable.isMethod = true := hmethods longest (by simp)
    rw [lastHolder_of_methods hlongest hmethod, yields_iff_of_method hmethod] at htaken
    exact Nat.le_trans (hlongest.arity_le hearlier) htaken
  · exact yields_lastHolder_of_arity_le

/-- A function is left if all that arrive later are shorter by more than one parameter. -/
theorem lastHolder_of_functions (hfunction : longest.callable.isMethod = false)
    (hshorter : ∀ later ∈ after, later.callable.arity + 1 < longest.callable.arity) :
    lastHolder (some longest) after = some longest := by
  apply lastHolder_of_refused
  intro later hlater
  have hlt := hshorter later hlater
  rw [← Bool.not_eq_true, yields_iff_of_function hfunction]
  omega

/-- If only shorter functions arrive later and one of them is shorter by one parameter, a shorter
one is left. -/
theorem arity_lastHolder_lt_of_functions (hfunction : longest.callable.isMethod = false)
    (hshorter : ∀ later ∈ after, later.callable.arity < longest.callable.arity)
    (hclose : ∃ later ∈ after, later.callable.arity + 1 = longest.callable.arity)
    (hholder : lastHolder (some longest) after = some holder) :
    holder.callable.arity < longest.callable.arity := by
  induction after with
  | nil =>
    obtain ⟨later, hlater, _⟩ := hclose
    exact absurd hlater List.not_mem_nil
  | cons new rest ih =>
    have hnew : new.callable.arity < longest.callable.arity := hshorter new List.mem_cons_self
    have hrest : ∀ later ∈ rest, later.callable.arity < longest.callable.arity :=
      fun later hlater => hshorter later (List.mem_cons_of_mem _ hlater)
    simp only [lastHolder, List.foldl_cons] at hholder
    cases hyields : yields (some longest) new with
    | true =>
      -- From here on the place is held by shorter ones only.
      rw [succeed_of_yields hyields] at hholder
      rcases mem_of_lastHolder hholder with hsame | hmem
      · obtain rfl := Option.some.inj hsame
        exact hnew
      · exact hrest holder hmem
    | false =>
      have hfar : ¬longest.callable.arity ≤ new.callable.arity + 1 := by
        rw [← yields_iff_of_function hfunction, hyields]
        exact Bool.false_ne_true
      obtain ⟨later, hlater, hone⟩ := hclose
      rw [succeed_of_refused hyields] at hholder
      refine ih hrest ⟨later, ?_, hone⟩ hholder
      rcases List.mem_cons.mp hlater with rfl | hlater
      · omega
      · exact hlater

/-- Whoever is left of functions has as many parameters as the last of the longest only by being
that function, and is so exactly if none that is one parameter shorter arrives after it. -/
theorem arity_lastHolder_eq_iff_of_functions (hlongest : LastLongest before longest after)
    (hfunction : longest.callable.isMethod = false)
    (hholder : lastHolder (some longest) after = some holder) :
    (holder.callable.arity = longest.callable.arity → holder = longest) ∧
      (holder.callable.arity = longest.callable.arity ↔
        ∀ later ∈ after, later.callable.arity + 1 ≠ longest.callable.arity) := by
  by_cases hclose : ∃ later ∈ after, later.callable.arity + 1 = longest.callable.arity
  · have hlt : holder.callable.arity < longest.callable.arity :=
      arity_lastHolder_lt_of_functions hfunction hlongest.after_lt hclose hholder
    have hne : holder.callable.arity ≠ longest.callable.arity := Nat.ne_of_lt hlt
    refine ⟨fun harity => absurd harity hne, fun harity => absurd harity hne, fun hapart => ?_⟩
    obtain ⟨later, hlater, hone⟩ := hclose
    exact absurd hone (hapart later hlater)
  · have hapart : ∀ later ∈ after, later.callable.arity + 1 ≠ longest.callable.arity :=
      fun later hlater hone => hclose ⟨later, hlater, hone⟩
    have hshorter : ∀ later ∈ after, later.callable.arity + 1 < longest.callable.arity := by
      intro later hlater
      have hlt := hlongest.after_lt later hlater
      have hne := hapart later hlater
      omega
    rw [lastHolder_of_functions hfunction hshorter] at hholder
    obtain rfl := Option.some.inj hholder
    exact ⟨fun _ => rfl, fun _ => hapart, fun _ => rfl⟩

end Contender

namespace Namespace

variable {ns : Namespace} {target : NativeTarget} {holder? : Option Contender}

/-- A place and its holder give way to a contender alike. -/
theorem settle_map_callable (holder? : Option Contender) (new : Contender) :
    settle (holder?.map Contender.callable) new.callable =
      (Contender.succeed holder? new).map Contender.callable := by
  unfold settle Contender.succeed
  change (if Contender.yields holder? new = true then _ else _) = _
  split <;> rfl

/-! ## Competing methods -/

/-- Whether an operation adds a class, a callable or a constant and revises nothing. -/
def Operation.isAddition : Operation → Bool
  | .confirmClass .. | .ensureClass _ | .addFunction .. | .addMethod .. | .addConstant .. => true
  | .setTypes .. | .applyOverrides _ | .augment .. => false

/-- What an operation brings to a place, whether or not it is taken up there. -/
def Operation.contenderAt? (target : NativeTarget) : Operation → Option Contender
  | .addFunction function _ native? =>
    if target = .functionNamed function.name then some ⟨function, native?⟩ else none
  | .addMethod nativeName method _ native? =>
    if target = .methodOf nativeName method.name then some ⟨method, native?⟩ else none
  | .confirmClass .. | .ensureClass _ | .addConstant .. | .setTypes .. | .applyOverrides _
  | .augment .. => none

/-- What operations bring to a place, in their order. -/
def Operation.contendersAt (target : NativeTarget) (operations : List Operation) :
    List Contender :=
  operations.filterMap (contenderAt? target)

/-- What a longer run brings to a place is what the shorter one brings and what its last operation
does. -/
theorem Operation.contendersAt_append_singleton (target : NativeTarget)
    (operations : List Operation) (operation : Operation) :
    contendersAt target (operations ++ [operation]) =
      contendersAt target operations ++ (operation.contenderAt? target).toList := by
  rw [contendersAt, List.filterMap_append, contendersAt]
  cases hcontender : operation.contenderAt? target with
  | none => rw [List.filterMap_cons_none hcontender]; rfl
  | some contender => rw [List.filterMap_cons_some hcontender]; rfl

/-- After an addition the place is held by whoever is left of its holder and the contender. -/
theorem at?_perform_of_isAddition {operation : Operation} (haddition : operation.isAddition = true)
    (h : ns.at? target = holder?.map Contender.callable) :
    (ns.perform operation).at? target =
      (Contender.lastHolder holder? (operation.contenderAt? target).toList).map
        Contender.callable := by
  cases operation with
  | confirmClass nativeName definition => exact (at?_confirmClass ns nativeName _ target).trans h
  | ensureClass nativeName => exact (at?_ensureClass ns nativeName target).trans h
  | addFunction function hfunction native? =>
    rw [perform, at?_addFunction, h, Operation.contenderAt?]
    split
    · exact settle_map_callable holder? ⟨function, native?⟩
    · rfl
  | addMethod nativeName method hmethod native? =>
    rw [perform, at?_addMethod, h, Operation.contenderAt?]
    split
    · exact settle_map_callable holder? ⟨method, native?⟩
    · rfl
  | addConstant name line =>
    refine Eq.trans ?_ h
    cases target <;> rfl
  | setTypes _ _ => exact absurd haddition Bool.false_ne_true
  | applyOverrides _ => exact absurd haddition Bool.false_ne_true
  | augment _ _ => exact absurd haddition Bool.false_ne_true

/-- After additions every place is held by the last holder among the contenders for it. -/
theorem at?_ofOperations {operations : List Operation}
    (hadditions : ∀ operation ∈ operations, operation.isAddition = true) (target : NativeTarget) :
    (ofOperations operations).at? target =
      (Contender.lastHolder none (Operation.contendersAt target operations)).map
        Contender.callable := by
  induction operations using List.reverseRecOn with
  | nil => cases target <;> rfl
  | append_singleton operations operation ih =>
    have hearlier := ih fun earlier hmem => hadditions earlier (List.mem_append_left _ hmem)
    have haddition := hadditions operation (by simp)
    rw [Operation.contendersAt_append_singleton, Contender.lastHolder, List.foldl_append,
      ofOperations_append_singleton]
    exact at?_perform_of_isAddition haddition hearlier

/-- Only methods contend for the place of a method. -/
theorem isMethod_of_mem_contendersAt {nativeName name : String} {operations : List Operation}
    {contender : Contender}
    (hmem : contender ∈ Operation.contendersAt (.methodOf nativeName name) operations) :
    contender.callable.isMethod = true := by
  obtain ⟨operation, _, hcontender⟩ := List.mem_filterMap.mp hmem
  cases operation with
  | addMethod other method hmethod native? =>
    simp only [Operation.contenderAt?] at hcontender
    split at hcontender
    · obtain rfl := Option.some.inj hcontender
      exact hmethod
    · cases hcontender
  | addFunction function _ native? => simp [Operation.contenderAt?] at hcontender
  | confirmClass _ _ => cases hcontender
  | ensureClass _ => cases hcontender
  | addConstant _ _ => cases hcontender
  | setTypes _ _ => cases hcontender
  | applyOverrides _ => cases hcontender
  | augment _ _ => cases hcontender

/-- However classes, functions, methods and constants are added, of the methods that are added to a
class under one name the last of the longest is there, and a method is taken up exactly if none that
was added before it is longer. -/
theorem longest_method_wins {operations : List Operation}
    (hadditions : ∀ operation ∈ operations, operation.isAddition = true)
    (nativeName name : String) :
    let added := Operation.contendersAt (.methodOf nativeName name)
    (added operations ≠ [] → ∃ before longest after,
      added operations = before ++ longest :: after ∧
        Contender.LastLongest before longest after ∧
        (ofOperations operations).method? nativeName name = some longest.callable) ∧
      ∀ before method hmethod native? after,
        operations = before ++ .addMethod nativeName method hmethod native? :: after →
        method.name = name →
          ((ofOperations before).acceptsMethod nativeName method = true ↔
            ∀ earlier ∈ added before, earlier.callable.arity ≤ method.arity) := by
  intro added
  constructor
  · intro hsome
    obtain ⟨before, longest, after, hsplit, hlongest⟩ := Contender.exists_lastLongest hsome
    have hmem : longest ∈ added operations := by
      rw [hsplit]
      simp
    have hmethod : longest.callable.isMethod = true := isMethod_of_mem_contendersAt hmem
    have hplace := at?_ofOperations hadditions (.methodOf nativeName name)
    change _ = (Contender.lastHolder none (added operations)).map _ at hplace
    rw [hsplit, Contender.lastHolder_of_methods hlongest hmethod] at hplace
    exact ⟨before, longest, after, hsplit, hlongest, hplace⟩
  · rintro before method hmethod native? after rfl rfl
    have hearlier : ∀ operation ∈ before, operation.isAddition = true :=
      fun operation hmem => hadditions operation (List.mem_append_left _ hmem)
    have hplace := at?_ofOperations hearlier (.methodOf nativeName method.name)
    have haccepts : (ofOperations before).acceptsMethod nativeName method =
        Contender.yields (Contender.lastHolder none (added before)) ⟨method, native?⟩ :=
      congrArg (fun existing? => accepts existing? method) hplace
    rw [haccepts, Contender.yields_lastHolder_iff_of_methods
      fun contender hmem => isMethod_of_mem_contendersAt hmem]

/-- Four methods of one class under one name, of which the second and the third are the longest;
the class is defined in between, and a function of this name is added. The third is accepted, and
the last is not. -/
theorem longest_method_wins_of_rivals :
    let rival (isMethod : Bool) (names : List String) : Callable :=
      ⟨"f", isMethod, names.map fun name => ⟨name, "int"⟩, names, "none", []⟩
    let earlier : List Operation :=
      [.addMethod "GtkA" (rival true ["a"]) rfl (some "a_short"),
        .addMethod "GtkA" (rival true ["a", "b"]) rfl (some "a_long"),
        .confirmClass "GtkA" ⟨"A", none, [], [], []⟩,
        .addFunction (rival false ["a", "b", "c"]) rfl (some "f")]
    let third : Operation := .addMethod "GtkA" (rival true ["x", "y"]) rfl none
    let last : Operation := .addMethod "GtkA" (rival true []) rfl (some "a_bare")
    let operations := earlier ++ [third, last]
    let added := Operation.contendersAt (.methodOf "GtkA" "f") operations
    (∀ operation ∈ operations, operation.isAddition = true) ∧ added ≠ [] ∧
      (∃ before longest after, added = before ++ longest :: after ∧
        Contender.LastLongest before longest after ∧
        (ofOperations operations).method? "GtkA" "f" = some longest.callable) ∧
      (ofOperations earlier).acceptsMethod "GtkA" (rival true ["x", "y"]) = true ∧
      (ofOperations (earlier ++ [third])).acceptsMethod "GtkA" (rival true []) = false := by
  intro rival earlier third last operations added
  have hadditions : ∀ operation ∈ operations, operation.isAddition = true := by decide
  have hsome : added ≠ [] := List.cons_ne_nil _ _
  obtain ⟨hstored, haccepted⟩ := longest_method_wins hadditions "GtkA" "f"
  have hthird := haccepted earlier (rival true ["x", "y"]) rfl none [last] rfl rfl
  have hlast := haccepted (earlier ++ [third]) (rival true []) rfl (some "a_bare") [] rfl rfl
  refine ⟨hadditions, hsome, hstored hsome, hthird.mpr (by decide), ?_⟩
  exact Bool.eq_false_iff.mpr fun htaken => absurd (hlast.mp htaken) (by decide)

/-! ## Competing functions -/

/-- Takes up functions one after the other, each with the native identifier that it brings. -/
def addFunctions (ns : Namespace) (functions : List Contender) : Namespace :=
  functions.foldl (fun ns function => ns.addFunction function.callable function.native?) ns

/-- After functions of one name, the last holder among them is there. -/
theorem get?_functions_addFunctions {name : String} {functions : List Contender}
    (hnamed : ∀ function ∈ functions, function.callable.name = name)
    (h : ns.functions.get? name = holder?.map Contender.callable) :
    (ns.addFunctions functions).functions.get? name =
      (Contender.lastHolder holder? functions).map Contender.callable := by
  induction functions generalizing ns holder? with
  | nil => exact h
  | cons function rest ih =>
    have hname : function.callable.name = name := hnamed function List.mem_cons_self
    have hrest : ∀ later ∈ rest, later.callable.name = name :=
      fun later hlater => hnamed later (List.mem_cons_of_mem _ hlater)
    have hplace : (ns.addFunction function.callable function.native?).functions.get? name =
        settle (ns.functions.get? name) function.callable := by
      have hafter := at?_addFunction ns function.callable function.native? (.functionNamed name)
      rwa [if_pos (by rw [hname])] at hafter
    rw [h, settle_map_callable] at hplace
    exact ih hrest hplace

/-- A function is taken up exactly if the one that is there is longer by at most one parameter. -/
theorem acceptsFunction_iff_of_function {function : Callable}
    (hkind : ∀ holder, ns.functions.get? function.name = some holder → holder.isMethod = false) :
    ns.acceptsFunction function = true ↔
      ∀ holder, ns.functions.get? function.name = some holder →
        holder.arity ≤ function.arity + 1 := by
  unfold acceptsFunction
  cases hthere : ns.functions.get? function.name with
  | none => simp [accepts]
  | some holder =>
    have hparameters : holder.parameters = holder.explicit := by
      simp [Callable.parameters, hkind holder hthere]
    simp [accepts, Callable.yieldsTo, hparameters, Callable.arity]

/-- Functions of one name are added to a namespace that has none. A function is taken up exactly if
the one that is there is not longer by more than one parameter. At the end one of the functions is
there, and it has the most parameters, being the last of the longest, exactly if none that is one
parameter shorter came after that one. -/
theorem longest_function_kept_iff {name : String} {functions : List Contender}
    (hfree : ns.functions.get? name = none)
    (hfunctions : ∀ function ∈ functions,
      function.callable.name = name ∧ function.callable.isMethod = false)
    (hsome : functions ≠ []) :
    (∀ before new after, functions = before ++ new :: after →
      ((ns.addFunctions before).acceptsFunction new.callable = true ↔
        ∀ holder, (ns.addFunctions before).functions.get? name = some holder →
          holder.arity ≤ new.callable.arity + 1)) ∧
      ∃ before longest after, functions = before ++ longest :: after ∧
        Contender.LastLongest before longest after ∧
        ∃ kept ∈ functions,
          (ns.addFunctions functions).functions.get? name = some kept.callable ∧
          (kept.callable.arity = longest.callable.arity → kept = longest) ∧
          (kept.callable.arity = longest.callable.arity ↔
            ∀ later ∈ after, later.callable.arity + 1 ≠ longest.callable.arity) := by
  have hheld {contenders : List Contender}
      (hamong : ∀ contender ∈ contenders, contender ∈ functions) :
      (ns.addFunctions contenders).functions.get? name =
        (Contender.lastHolder none contenders).map Contender.callable :=
    get?_functions_addFunctions (fun contender hmem => (hfunctions contender (hamong _ hmem)).1)
      hfree
  constructor
  · rintro before new after rfl
    have hplace := hheld fun earlier hmem => List.mem_append_left _ hmem
    obtain rfl : new.callable.name = name := (hfunctions new (by simp)).1
    apply acceptsFunction_iff_of_function
    intro holder hthere
    rw [hplace, Option.map_eq_some_iff] at hthere
    obtain ⟨contender, hcontender, rfl⟩ := hthere
    have hmem : contender ∈ before := Contender.mem_of_lastHolder_none hcontender
    exact (hfunctions contender (List.mem_append_left _ hmem)).2
  · obtain ⟨before, longest, after, rfl, hlongest⟩ := Contender.exists_lastLongest hsome
    have hfunction : longest.callable.isMethod = false := (hfunctions longest (by simp)).2
    obtain ⟨kept, hkept⟩ := Contender.exists_lastHolder longest after
    have hlast : Contender.lastHolder none (before ++ longest :: after) = some kept :=
      (Contender.lastHolder_of_lastLongest hlongest).trans hkept
    have hplace := hheld fun contender hmem => hmem
    rw [hlast] at hplace
    exact ⟨before, longest, after, rfl, hlongest, kept, Contender.mem_of_lastHolder_none hlast,
      hplace, Contender.arity_lastHolder_eq_iff_of_functions hlongest hfunction hkept⟩

/-- Functions of which the longest is followed by one that is two parameters shorter, which is not
taken up. -/
theorem longest_function_kept_iff_of_distant_rival :
    let function (names : List String) : Callable :=
      ⟨"f", false, names.map fun name => ⟨name, "int"⟩, names, "none", []⟩
    let earlier : List Contender :=
      [⟨function ["a"], some "f_one"⟩, ⟨function ["a", "b", "c"], some "f_three"⟩]
    let last : Contender := ⟨function ["x"], some "f_other"⟩
    let functions := earlier ++ [last]
    empty.functions.get? "f" = none ∧
      (∀ function ∈ functions,
        function.callable.name = "f" ∧ function.callable.isMethod = false) ∧
      functions ≠ [] ∧
      (empty.addFunctions earlier).acceptsFunction last.callable = false ∧
      ∃ before longest after, functions = before ++ longest :: after ∧
        Contender.LastLongest before longest after ∧
        ∃ kept ∈ functions,
          (empty.addFunctions functions).functions.get? "f" = some kept.callable ∧
          (kept.callable.arity = longest.callable.arity → kept = longest) ∧
          (kept.callable.arity = longest.callable.arity ↔
            ∀ later ∈ after, later.callable.arity + 1 ≠ longest.callable.arity) := by
  intro function earlier last functions
  have hfree : empty.functions.get? "f" = none := rfl
  have hfunctions : ∀ function ∈ functions,
      function.callable.name = "f" ∧ function.callable.isMethod = false := by decide
  have hsome : functions ≠ [] := List.cons_ne_nil _ _
  obtain ⟨haccepted, hkept⟩ := longest_function_kept_iff hfree hfunctions hsome
  have hlast := haccepted earlier last [] rfl
  have hheld : (empty.addFunctions earlier).functions.get? "f" =
      (Contender.lastHolder none earlier).map Contender.callable :=
    get?_functions_addFunctions
      (fun function hmem => (hfunctions function (List.mem_append_left [last] hmem)).1) rfl
  refine ⟨hfree, hfunctions, hsome, ?_, hkept⟩
  exact Bool.eq_false_iff.mpr fun htaken => absurd (hlast.mp htaken _ hheld) (by decide)

/-- A function of one parameter takes the place of one of two that came before it. -/
theorem shorter_function_replaces_longer :
    let function (names : List String) : Callable :=
      ⟨"f", false, names.map fun name => ⟨name, "int"⟩, names, "none", []⟩
    let functions : List Contender :=
      [⟨function ["a", "b"], some "f_long"⟩, ⟨function ["a"], some "f_short"⟩]
    empty.functions.get? "f" = none ∧
      (∀ function ∈ functions,
        function.callable.name = "f" ∧ function.callable.isMethod = false) ∧
      (empty.addFunctions functions).functions.get? "f" = some (function ["a"]) ∧
      ∃ longer ∈ functions, (function ["a"]).arity < longer.callable.arity := by
  refine ⟨rfl, by decide, rfl, ⟨_, List.mem_cons_self, ?_⟩⟩
  decide

end Namespace

end Stubgen
