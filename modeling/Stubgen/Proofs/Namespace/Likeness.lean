import Stubgen.Proofs.Namespace.Naming

/-!
# Namespaces that differ at most in links

The link of a method leads to a page in the module that its class had when the method arrived.
Two namespaces that come of the same definitions may differ in these links and in nothing else.
This file says what that means and how it is shown: place by place, by the same holder, and for
the identifiers, by which of them are registered.
-/

namespace Stubgen.Namespace

/-- Two stored forms of one method: they are linked to pages in modules of their own, and
either link may be missing. -/
def LinkedAlike (style : DocStyle) (nativeName : String) (a b : Callable) : Prop :=
  ∃ method native? module? otherModule?,
    a = linked style module? nativeName method native? ∧
      b = linked style otherModule? nativeName method native?

/-- Two namespaces are the same but for the links of methods. -/
structure SameUpToLinks (style : DocStyle) (a b : Namespace) : Prop where
  /-- The classes are the same, and so is all that is known of them apart from their methods. -/
  outline : ∀ nativeName, a.outline? nativeName = b.outline? nativeName
  functions : a.functions = b.functions
  /-- The classes have the same methods, but for their links. -/
  methods : ∀ nativeName name, Option.Rel (LinkedAlike style nativeName)
    (a.method? nativeName name) (b.method? nativeName name)
  constants : a.constants = b.constants
  natives : a.natives = b.natives

variable {style : DocStyle} {a b : Namespace} {holder? : Option Contender}

/-- A function is stored as it is defined. -/
theorem HeldBy.get?_functions {name : String}
    (h : a.HeldBy style (.functionNamed name) holder?) :
    a.functions.get? name = holder?.map Contender.callable := by
  change Option.Rel _ _ (a.functions.get? name) at h
  generalize a.functions.get? name = found? at h
  cases h with
  | none => rfl
  | some hstored => exact congrArg some hstored

/-- Methods that hold the same place by the same definition are alike but for their links. -/
theorem HeldBy.linkedAlike {nativeName name : String}
    (ha : a.HeldBy style (.methodOf nativeName name) holder?)
    (hb : b.HeldBy style (.methodOf nativeName name) holder?) :
    Option.Rel (LinkedAlike style nativeName) (a.method? nativeName name)
      (b.method? nativeName name) := by
  change Option.Rel _ _ (a.method? nativeName name) at ha
  change Option.Rel _ _ (b.method? nativeName name) at hb
  generalize a.method? nativeName name = found? at ha ⊢
  generalize b.method? nativeName name = other? at hb ⊢
  cases ha with
  | none =>
    cases hb
    exact .none
  | some hstored =>
    cases hb with
    | some hother =>
      obtain ⟨module?, hmodule⟩ := hstored
      obtain ⟨otherModule?, hotherModule⟩ := hother
      exact .some ⟨_, _, module?, otherModule?, hmodule, hotherModule⟩

/-- Tables of identifiers whose entries are named by the same unambiguous definitions are the
same as soon as they hold the same identifiers. -/
theorem natives_eq_of_contains {definitions : List Definition}
    (hunambiguous : Definition.Unambiguous definitions)
    (ha : ∀ native target, a.natives.get? native = some target →
      (native, target) ∈ definitions.flatMap Definition.names)
    (hb : ∀ native target, b.natives.get? native = some target →
      (native, target) ∈ definitions.flatMap Definition.names)
    (hcontains : ∀ native, a.natives.contains native = true ↔ b.natives.contains native = true) :
    a.natives = b.natives := by
  apply Table.ext_get?
  intro native
  have hsome := hcontains native
  unfold Table.contains at hsome
  cases hfound : a.natives.get? native with
  | none =>
    cases hother : b.natives.get? native with
    | none => rfl
    | some target => simp [hfound, hother] at hsome
  | some target =>
    cases hother : b.natives.get? native with
    | none => simp [hfound, hother] at hsome
    | some other =>
      exact congrArg some
        (hunambiguous _ (ha native target hfound) _ (hb native other hother) rfl)

/-- Namespaces whose places are held alike and whose classes, constants and identifiers are the
same differ at most in links. -/
theorem sameUpToLinks_of_heldBy
    (houtline : ∀ nativeName, a.outline? nativeName = b.outline? nativeName)
    (hheld : ∀ target, ∃ holder?, a.HeldBy style target holder? ∧ b.HeldBy style target holder?)
    (hconstants : a.constants = b.constants) (hnatives : a.natives = b.natives) :
    SameUpToLinks style a b where
  outline := houtline
  functions := by
    apply Table.ext_get?
    intro name
    obtain ⟨holder?, ha, hb⟩ := hheld (.functionNamed name)
    rw [ha.get?_functions, hb.get?_functions]
  methods := by
    intro nativeName name
    obtain ⟨holder?, ha, hb⟩ := hheld (.methodOf nativeName name)
    exact ha.linkedAlike hb
  constants := hconstants
  natives := hnatives

end Stubgen.Namespace
