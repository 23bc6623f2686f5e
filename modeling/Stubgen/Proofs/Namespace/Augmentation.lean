import Stubgen.Proofs.Entries
import Stubgen.Constant.Augmentation

/-!
# Constants are only added

A namespace takes up the constants of a live module whose names it does not define yet. Everything
else about it stays as it was, and of a name that is listed more than once the last value counts.
Since the names are defined afterwards, the same answer adds nothing the second time. The same holds
if the namespace is changed in place, one constant after the other, with the known names collected
before the first; and if the module cannot be examined, nothing has been written.
-/

namespace Stubgen.Namespace

variable {ns : Namespace} {constants : List (String × Constant)} {name line : String}

/-! ## Working in place -/

/-- Takes up constants in place, one after the other, but for reserved and known names. Tells how
many were taken up. -/
def addListed (known : List String) : List (String × Constant) → EStateM Error Namespace Nat
  | [] => pure 0
  | entry :: rest =>
    if Constant.isReserved entry.1 || entry.1 ∈ known then addListed known rest
    else do
      modify fun ns => ns.addConstant entry.1 (entry.2.line (· ∈ known) entry.1)
      let added ← addListed known rest
      return added + 1

/-- Examines a module and takes up its constants in place. The known names are collected once. -/
def augmentInPlace (introspector : Introspector) (module : String) :
    EStateM Error Namespace Nat := do
  match introspector.examine module with
  | .error e => throw e
  | .ok .none => return 0
  | .ok (some constants) =>
    let ns ← get
    addListed ns.displayNames constants

/-- The lines that a namespace takes up for constants. -/
def newLines (ns : Namespace) (constants : List (String × Constant)) : List (String × String) :=
  (ns.missingConstants constants).map fun entry =>
    (entry.1, entry.2.line ns.hasDisplayName entry.1)

/-- The last listed value of a name. -/
def IsLastListed (constants : List (String × Constant)) (name : String) (constant : Constant) :
    Prop :=
  ∃ before after, constants = before ++ (name, constant) :: after ∧
    ∀ later ∈ after, later.1 ≠ name

/-- A namespace has been extended by constants: nothing that it had is changed, and the new lines
are those of the listed names that are neither reserved nor defined before, with their last
values. -/
structure IsAugmented (ns : Namespace) (constants : List (String × Constant))
    (extended : Namespace) : Prop where
  classes_eq : extended.classes = ns.classes
  functions_eq : extended.functions = ns.functions
  natives_eq : extended.natives = ns.natives
  kept : ∀ name line, ns.constants.get? name = some line →
    extended.constants.get? name = some line
  added : ∀ name line, ns.constants.get? name = none →
    (extended.constants.get? name = some line ↔
      ¬"__".toList <+: name.toList ∧ name ∉ ns.displayNames ∧
        ∃ constant, IsLastListed constants name constant ∧
          line = name ++ " = " ++ constant.render (· ∈ ns.displayNames))

/-! ## Names that are defined -/

/-- A name is defined exactly if it is among the names that the stub defines. -/
theorem hasDisplayName_iff : ns.hasDisplayName name = true ↔ name ∈ ns.displayNames := by
  simp only [hasDisplayName, displayNames, List.mem_append, Table.mem_keys_iff, Bool.or_eq_true,
    List.any_eq_true, List.mem_map, decide_eq_true_eq]
  constructor
  · rintro ((hfunction | hconstant) | hclass)
    · exact .inl (.inr hfunction)
    · exact .inr hconstant
    · exact .inl (.inl hclass)
  · rintro ((hclass | hfunction) | hconstant)
    · exact .inr hclass
    · exact .inl (.inl hfunction)
    · exact .inl (.inr hconstant)

/-- The names that are known are those that the stub defines. -/
theorem hasDisplayName_eq (ns : Namespace) :
    ns.hasDisplayName = fun name => name ∈ ns.displayNames :=
  funext fun _ => Bool.eq_iff_iff.mpr (hasDisplayName_iff.trans decide_eq_true_iff.symm)

/-- A name is reserved if it begins with two underscores. -/
theorem isReserved_iff : Constant.isReserved name = true ↔ "__".toList <+: name.toList :=
  List.isPrefixOf_iff_prefix

/-- The name of a constant is defined. -/
theorem hasDisplayName_of_constant (hline : ns.constants.get? name = some line) :
    ns.hasDisplayName name = true := by
  have hthere : ns.constants.contains name = true := by
    rw [Table.contains, hline, Option.isSome_some]
  simp [hasDisplayName, hthere]

/-! ## The new lines -/

/-- A namespace takes up constants as lines, one after the other. -/
theorem augment_eq (ns : Namespace) (constants : List (String × Constant)) :
    ns.augment constants =
      { ns with
        constants := (ns.newLines constants).foldl
          (fun table entry => table.insert entry.1 entry.2) ns.constants } := by
  -- The lines are rendered against the names of the given namespace and written into the growing
  -- one, so the induction keeps the two apart.
  suffices hfold : ∀ (missing : List (String × Constant)) (extended : Namespace),
      missing.foldl (fun extended entry =>
          extended.addConstant entry.1 (entry.2.line ns.hasDisplayName entry.1)) extended =
        { extended with
          constants := (missing.map fun entry =>
              (entry.1, entry.2.line ns.hasDisplayName entry.1)).foldl
            (fun table entry => table.insert entry.1 entry.2) extended.constants } from
    hfold (ns.missingConstants constants) ns
  intro missing
  induction missing with
  | nil => exact fun _ => rfl
  | cons entry rest ih => exact fun extended => ih _

/-- After constants have been taken up, a name has the line of its last listed value, if it is
neither reserved nor defined before, and otherwise the line that it had. -/
theorem get?_constants_augment (ns : Namespace) (constants : List (String × Constant))
    (name : String) :
    (ns.augment constants).constants.get? name =
      ((if !(Constant.isReserved name || ns.hasDisplayName name) then lastValueAt? name constants
        else none).map fun constant => constant.line ns.hasDisplayName name).or
        (ns.constants.get? name) := by
  have hmissing : lastValueAt? name (ns.missingConstants constants) =
      if !(Constant.isReserved name || ns.hasDisplayName name) then lastValueAt? name constants
      else none :=
    lastValueAt?_filter (fun name => !(Constant.isReserved name || ns.hasDisplayName name)) name _
  have hlines : lastValueAt? name (ns.newLines constants) =
      (lastValueAt? name (ns.missingConstants constants)).map fun constant =>
        constant.line ns.hasDisplayName name :=
    lastValueAt?_map (fun name (constant : Constant) => constant.line ns.hasDisplayName name) name _
  rw [augment_eq, ← hmissing, ← hlines]
  exact Table.get?_foldl_insert _ _ _

/-- A namespace that takes up constants is extended by them and by nothing else. -/
theorem isAugmented_augment (ns : Namespace) (constants : List (String × Constant)) :
    ns.IsAugmented constants (ns.augment constants) := by
  have heq := augment_eq ns constants
  refine ⟨by rw [heq], by rw [heq], by rw [heq], ?_, ?_⟩
  · intro name line hline
    rw [get?_constants_augment, hasDisplayName_of_constant hline]
    simpa using hline
  · intro name line hnone
    have hfree : (!(Constant.isReserved name || ns.hasDisplayName name)) = true ↔
        ¬"__".toList <+: name.toList ∧ name ∉ ns.displayNames := by
      rw [Bool.not_eq_true', Bool.or_eq_false_iff, ← Bool.not_eq_true, ← Bool.not_eq_true,
        isReserved_iff, hasDisplayName_iff]
    rw [get?_constants_augment, hnone, Option.or_none, Option.map_eq_some_iff]
    constructor
    · rintro ⟨constant, hlast, rfl⟩
      split at hlast
      · next hmissing =>
        obtain ⟨hreserved, hknown⟩ := hfree.mp hmissing
        refine ⟨hreserved, hknown, constant, lastValueAt?_eq_some_iff.mp hlast, ?_⟩
        rw [Constant.line, hasDisplayName_eq]
      · exact nomatch hlast
    · rintro ⟨hreserved, hknown, constant, hlast, rfl⟩
      rw [if_pos (hfree.mpr ⟨hreserved, hknown⟩)]
      refine ⟨constant, lastValueAt?_eq_some_iff.mpr hlast, ?_⟩
      rw [Constant.line, hasDisplayName_eq]

/-! ## The second time -/

/-- After constants have been taken up, the names that were defined before are defined, and so are
the listed ones that are not reserved. -/
theorem hasDisplayName_augment_iff :
    (ns.augment constants).hasDisplayName name = true ↔
      ns.hasDisplayName name = true ∨
        Constant.isReserved name = false ∧ name ∈ constants.map (·.1) := by
  have heq := augment_eq ns constants
  have hclasses : (ns.augment constants).classes = ns.classes := by rw [heq]
  have hfunctions : (ns.augment constants).functions = ns.functions := by rw [heq]
  cases hknown : ns.hasDisplayName name with
  | true =>
    have hconstants : (ns.augment constants).constants.contains name =
        ns.constants.contains name := by
      rw [Table.contains, get?_constants_augment, hknown]
      simp [Table.contains]
    refine iff_of_true ?_ (.inl rfl)
    rwa [hasDisplayName, hclasses, hfunctions, hconstants]
  | false =>
    have hlisted : (lastValueAt? name constants).isSome = true ↔ name ∈ constants.map (·.1) := by
      rw [lastValueAt?, isSome_valueAt?_iff, List.map_reverse, List.mem_reverse]
    have hparts := hknown
    simp only [hasDisplayName, Bool.or_eq_false_iff] at hparts
    obtain ⟨⟨hfunction, hconstant⟩, hclass⟩ := hparts
    have hnone : ns.constants.get? name = none := by simpa [Table.contains] using hconstant
    rw [hasDisplayName, hclasses, hfunctions, hfunction, hclass, Bool.false_or, Bool.or_false,
      Table.contains, get?_constants_augment, hknown, hnone, Option.or_none, Option.isSome_map,
      ← hlisted]
    cases Constant.isReserved name <;> simp

/-- The second time there is nothing to be taken up. -/
theorem missingConstants_augment (ns : Namespace) (constants : List (String × Constant)) :
    (ns.augment constants).missingConstants constants = [] := by
  refine List.filter_eq_nil_iff.mpr fun entry hentry => ?_
  have hmem : entry.1 ∈ constants.map (·.1) := List.mem_map_of_mem hentry
  cases hreserved : Constant.isReserved entry.1 with
  | true => simp
  | false =>
    have hknown : (ns.augment constants).hasDisplayName entry.1 = true :=
      hasDisplayName_augment_iff.mpr (.inr ⟨hreserved, hmem⟩)
    simp [hknown]

/-! ## The same in place -/

/-- Constants that are taken up in place are those that are missing, with the same lines. -/
theorem run_addListed (ns extended : Namespace) (constants : List (String × Constant)) :
    (addListed ns.displayNames constants).run extended =
      .ok (ns.missingConstants constants).length
        ((ns.missingConstants constants).foldl (fun extended entry =>
          extended.addConstant entry.1 (entry.2.line ns.hasDisplayName entry.1)) extended) := by
  induction constants generalizing extended with
  | nil => rfl
  | cons entry rest ih =>
    have hskipped : (Constant.isReserved entry.1 || decide (entry.1 ∈ ns.displayNames)) =
        (Constant.isReserved entry.1 || ns.hasDisplayName entry.1) := by
      rw [hasDisplayName_eq]
    have hline : entry.2.line (· ∈ ns.displayNames) entry.1 =
        entry.2.line ns.hasDisplayName entry.1 := by
      rw [hasDisplayName_eq]
    cases hfree : (Constant.isReserved entry.1 || ns.hasDisplayName entry.1) with
    | true =>
      have hmissing : ns.missingConstants (entry :: rest) = ns.missingConstants rest :=
        List.filter_cons_of_neg (by simp [hfree])
      rw [addListed, hskipped, if_pos hfree, hmissing]
      exact ih extended
    | false =>
      have hmissing : ns.missingConstants (entry :: rest) = entry :: ns.missingConstants rest :=
        List.filter_cons_of_pos (by simp [hfree])
      rw [addListed, hskipped, if_neg (by simp [hfree]), hline, hmissing, EStateM.run_bind,
        EStateM.run_modify]
      dsimp only
      rw [EStateM.run_bind, ih]
      rfl

/-- A module that is examined in place comes to the same, and if it cannot be examined, nothing has
been written. -/
theorem run_augmentInPlace (ns : Namespace) (introspector : Introspector) (module : String) :
    (augmentInPlace introspector module).run ns =
      match ns.augmentFrom introspector module with
      | .ok (extended, added) => .ok added extended
      | .error e => .error e ns := by
  unfold augmentInPlace augmentFrom
  cases introspector.examine module with
  | error e => rfl
  | ok answer =>
    cases answer with
    | none => rfl
    | some constants =>
      have hrun := run_addListed ns ns constants
      rw [← augment] at hrun
      dsimp only
      rw [EStateM.run_bind, EStateM.run_get]
      exact hrun

/-- Examining a module only adds constants. An error leaves the namespace as it was, and a module
that cannot be imported changes nothing. Otherwise the new lines are those of the listed names that
are neither reserved nor defined before, each with its last value; nothing else is changed, and the
same answer changes nothing the second time. -/
theorem augment_only_adds (ns : Namespace) (introspector : Introspector) (module : String) :
    ((augmentInPlace introspector module).run ns =
      match ns.augmentFrom introspector module with
      | .ok (extended, added) => .ok added extended
      | .error e => .error e ns) ∧
    match introspector.examine module with
    | .error e => ns.augmentFrom introspector module = .error e
    | .ok .none => ns.augmentFrom introspector module = .ok (ns, 0)
    | .ok (some constants) =>
      ∃ extended added, ns.augmentFrom introspector module = .ok (extended, added) ∧
        ns.IsAugmented constants extended ∧
        extended.augmentFrom introspector module = .ok (extended, 0) := by
  refine ⟨run_augmentInPlace ns introspector module, ?_⟩
  have hagain (constants : List (String × Constant)) :
      (ns.augment constants).augment constants = ns.augment constants := by
    rw [augment, missingConstants_augment]
    rfl
  cases hanswer : introspector.examine module with
  | error e => simp only [augmentFrom, hanswer]
  | ok answer =>
    cases answer with
    | none => simp only [augmentFrom, hanswer]
    | some constants =>
      refine ⟨ns.augment constants, (ns.missingConstants constants).length, ?_,
        isAugmented_augment ns constants, ?_⟩
      · simp only [augmentFrom, hanswer]
      · simp only [augmentFrom, hanswer, hagain, missingConstants_augment, List.length_nil]

end Stubgen.Namespace
