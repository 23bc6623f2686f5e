import Stubgen.Proofs.Constant.Literals
import Stubgen.Proofs.Namespace.Augmentation
import Stubgen.Proofs.Namespace.Operation

/-!
# Constants wrapped in their types

A member of an enumeration or of a set of flags is written in a call of its type if the name of the
type is known. What is known are the names of everything that the stub defines, and these are not
only the names of classes: a function or a constant that has the name of the type is called, too.
This file tells exactly when a constant is wrapped, and when that is the right thing.
-/

namespace Stubgen.Namespace

variable {ns : Namespace} {constants : List (String × Constant)} {name type : String}
  {constant : Constant}

/-- The line of a constant whose literal stands in a call of its type. -/
def wrappedLine (name type : String) (constant : Constant) : String :=
  name ++ " = " ++ (type ++ "(" ++ constant.literal ++ ")")

/-- The line of a constant whose literal stands alone. -/
def bareLine (name : String) (constant : Constant) : String :=
  name ++ " = " ++ constant.literal

/-- A class appears under a name. -/
def NamesClass (ns : Namespace) (name : String) : Prop :=
  ∃ c ∈ ns.classes.values, c.name = name

/-- A function or a constant has a name. -/
def NamesOther (ns : Namespace) (name : String) : Prop :=
  name ∈ ns.functions.keys ∨ name ∈ ns.constants.keys

/-- A stub defines a name as that of a class, of a function or of a constant. -/
theorem mem_displayNames_iff :
    name ∈ ns.displayNames ↔ ns.NamesClass name ∨ ns.NamesOther name := by
  simp only [displayNames, List.mem_append, List.mem_map, NamesClass, NamesOther, or_assoc]

/-- A literal alone is not the literal in a call. -/
theorem wrappedLine_ne_bareLine (name type : String) (constant : Constant) :
    wrappedLine name type constant ≠ bareLine name constant := by
  intro h
  have hlength := congrArg String.length h
  simp only [wrappedLine, bareLine, String.length_append] at hlength
  have hparenthesis : "(".length = 1 := rfl
  omega

/-- The line of a typed constant that is taken up: the literal is in a call of the type exactly if
the stub defines the name of the type as anything. -/
theorem get?_constants_of_typed (hlast : IsLastListed constants name constant)
    (htype : constant.type? = some type) (hreserved : ¬"__".toList <+: name.toList)
    (hnew : name ∉ ns.displayNames) :
    (ns.augment constants).constants.get? name =
      some (if type ∈ ns.displayNames then wrappedLine name type constant
        else bareLine name constant) := by
  have hnone : ns.constants.get? name = none := by
    cases hline : ns.constants.get? name with
    | none => rfl
    | some line => exact absurd (hasDisplayName_iff.mp (hasDisplayName_of_constant hline)) hnew
  refine ((isAugmented_augment ns constants).added name _ hnone).mpr
    ⟨hreserved, hnew, constant, hlast, ?_⟩
  rw [constant.render_eq, htype]
  by_cases hknown : type ∈ ns.displayNames
  · simp [hknown, wrappedLine]
  · simp [hknown, bareLine]

/-- A typed constant that is taken up is wrapped in its type exactly if the stub defines the name of
the type as that of a class, of a function or of a constant, and otherwise its literal stands alone.
So it is wrapped exactly in the types that are classes if and only if no function and no constant
has the name of the type, or a class has it as well. -/
theorem wrapped_iff_named (ns : Namespace) (hlast : IsLastListed constants name constant)
    (htype : constant.type? = some type) (hreserved : ¬"__".toList <+: name.toList)
    (hnew : name ∉ ns.displayNames) :
    let line? := (ns.augment constants).constants.get? name
    (line? = some (wrappedLine name type constant) ↔ ns.NamesClass type ∨ ns.NamesOther type) ∧
    (line? = some (bareLine name constant) ↔ ¬ns.NamesClass type ∧ ¬ns.NamesOther type) ∧
    ((line? = some (wrappedLine name type constant) ↔ ns.NamesClass type) ↔
      (ns.NamesOther type → ns.NamesClass type)) := by
  intro line?
  have hline : line? = some (if type ∈ ns.displayNames then wrappedLine name type constant
      else bareLine name constant) :=
    get?_constants_of_typed hlast htype hreserved hnew
  have hne := wrappedLine_ne_bareLine name type constant
  have hwrapped : line? = some (wrappedLine name type constant) ↔
      ns.NamesClass type ∨ ns.NamesOther type := by
    rw [hline, ← mem_displayNames_iff]
    split
    · next hknown => simp [hknown]
    · next hunknown => simp [hunknown, hne.symm]
  have hbare : line? = some (bareLine name constant) ↔
      ¬ns.NamesClass type ∧ ¬ns.NamesOther type := by
    rw [hline, ← not_or, ← mem_displayNames_iff]
    split
    · next hknown => simp [hknown, hne]
    · next hunknown => simp [hunknown]
  exact ⟨hwrapped, hbare, by rw [hwrapped, or_iff_left_iff_imp]⟩

/-- A name that is listed twice has the line of its last value, here a member of an enumeration
whose type is a class. -/
theorem wrapped_iff_named_of_class :
    let ns := ofOperations [.confirmClass "GtkStateType" ⟨"StateType", some "Gtk", [], [], []⟩]
    let active := Constant.enumMember "StateType" (some 1)
    let constants := [("ACTIVE", .int 0), ("ACTIVE", active), ("X", .bool true)]
    IsLastListed constants "ACTIVE" active ∧ active.type? = some "StateType" ∧
      ¬"__".toList <+: "ACTIVE".toList ∧ "ACTIVE" ∉ ns.displayNames ∧
      ((ns.augment constants).constants.get? "ACTIVE" =
          some (wrappedLine "ACTIVE" "StateType" active) ↔ ns.NamesClass "StateType") ∧
      wrappedLine "ACTIVE" "StateType" active = "ACTIVE = StateType(1)" := by
  intro ns active constants
  have hlast : IsLastListed constants "ACTIVE" active :=
    ⟨[("ACTIVE", .int 0)], [("X", .bool true)], rfl, by decide⟩
  have hreserved : ¬"__".toList <+: "ACTIVE".toList := by decide
  have hnew : "ACTIVE" ∉ ns.displayNames := by decide +kernel
  have hother : ¬ns.NamesOther "StateType" := by
    rintro (hfunction | hconstant)
    · exact nomatch hfunction
    · exact nomatch hconstant
  obtain ⟨-, -, hright⟩ := wrapped_iff_named ns hlast rfl hreserved hnew
  exact ⟨hlast, rfl, hreserved, hnew, hright.mpr fun h => absurd h hother, by decide +kernel⟩

/-- A function and a constant that were taken up before wrap members of types that have their names,
though no class has them. -/
theorem function_and_constant_wrap :
    let earlier : Introspector := ⟨[], fun _ => .ok (some [("C", .int 5)])⟩
    let ns := ofOperations [.addFunction ⟨"F", false, [], [], "none", []⟩ rfl none,
      .augment earlier "m"]
    let extended := ns.augment [("A", .enumMember "F" (some 1)), ("B", .flag "C" (some 4))]
    ¬ns.NamesClass "F" ∧ extended.constants.get? "A" = some "A = F(1)" ∧
      ¬ns.NamesClass "C" ∧ extended.constants.get? "B" = some "B = C(0x4)" := by
  intro earlier ns extended
  have hclass (name : String) : ¬ns.NamesClass name := by
    rintro ⟨c, hc, -⟩
    exact nomatch hc
  exact ⟨hclass "F", by decide +kernel, hclass "C", by decide +kernel⟩

end Stubgen.Namespace
