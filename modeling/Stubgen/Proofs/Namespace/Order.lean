import Stubgen.Proofs.Namespace.Likeness
import Mathlib.Data.List.Pairwise
import Mathlib.Data.List.Perm.Basic

/-!
# The order of records

A method may be defined before its class, which is then provisional until its own definition
arrives. If no two records compete for anything, at most one definition arrives at every place,
and it is always taken up; so the order of the records shows in the links of methods only.
-/

namespace Stubgen

namespace Definition

/-- The native name of the class that a definition defines. -/
def definedClass? : Definition → Option String
  | .ofClass nativeName _ => some nativeName
  | .ofFunction .. | .ofMethod .. | .ofNothing => none

/-- Definitions that do not compete with each other. -/
structure Independent (definitions : List Definition) : Prop where
  /-- No class is defined twice. -/
  classes_once : (definitions.filterMap definedClass?).Nodup
  /-- No function and no method is defined twice. -/
  targets_once : (definitions.filterMap target?).Nodup
  /-- No callable brings the native identifier of another. -/
  natives_once : (definitions.filterMap native?).Nodup
  /-- No callable brings the native name of a class. -/
  natives_apart : ∀ native ∈ definitions.filterMap native?,
    native ∉ definitions.filterMap className?

variable {definitions others : List Definition}

/-- Independence does not depend on the order. -/
theorem Independent.perm (h : Independent definitions) (hperm : definitions.Perm others) :
    Independent others where
  classes_once := (hperm.filterMap definedClass?).nodup_iff.mp h.classes_once
  targets_once := (hperm.filterMap target?).nodup_iff.mp h.targets_once
  natives_once := (hperm.filterMap native?).nodup_iff.mp h.natives_once
  natives_apart := by
    intro native hnative hclass
    exact h.natives_apart native ((hperm.filterMap native?).mem_iff.mpr hnative)
      ((hperm.filterMap className?).mem_iff.mpr hclass)

/-- What is picked from a list by a key that occurs at most once does not depend on the order of
the list. -/
theorem filterMap_eq_of_perm {α β κ : Type} {pick : α → Option β} {keyOf : α → Option κ} (key : κ)
    (hkey : ∀ a b, pick a = some b → keyOf a = some key) {list other : List α}
    (hperm : list.Perm other) (honce : (list.filterMap keyOf).Nodup) :
    list.filterMap pick = other.filterMap pick := by
  have hsingle {list : List α} (honce : (list.filterMap keyOf).Nodup) :
      (list.filterMap pick).Pairwise fun _ _ => False := by
    rw [List.pairwise_filterMap]
    refine (List.pairwise_filterMap.mp honce).imp ?_
    intro a a' hne b hb b' hb'
    exact hne key (hkey a b hb) key (hkey a' b' hb') rfl
  have honce' := (hperm.filterMap keyOf).nodup_iff.mp honce
  exact (hperm.filterMap pick).eq_of_pairwise (fun _ _ _ _ hfalse => hfalse.elim)
    (hsingle honce) (hsingle honce')

/-- Independent definitions bring the same to a place in every order. -/
theorem Independent.contenders_eq (h : Independent definitions) (hperm : definitions.Perm others)
    (target : NativeTarget) : contenders target definitions = contenders target others :=
  filterMap_eq_of_perm target (fun _ _ hbrings => (contenderAt?_eq_some_iff.mp hbrings).1) hperm
    h.targets_once

/-- Independent definitions say the same about a class in every order. -/
theorem Independent.classDefinitions_eq (h : Independent definitions)
    (hperm : definitions.Perm others) (nativeName : String) :
    definitions.filterMap (classDefinition? nativeName) =
      others.filterMap (classDefinition? nativeName) := by
  refine filterMap_eq_of_perm nativeName ?_ hperm h.classes_once
  intro definition classDefinition hdefines
  cases definition with
  | ofClass other _ =>
    simp only [classDefinition?] at hdefines
    split at hdefines
    · next heq => exact congrArg some heq
    · cases hdefines
  | ofFunction _ _ => cases hdefines
  | ofMethod _ _ _ => cases hdefines
  | ofNothing => cases hdefines

/-- Independent definitions name no identifier for two targets. -/
theorem Independent.unambiguous (h : Independent definitions) : Unambiguous definitions := by
  rintro ⟨native, target⟩ hname ⟨_, other⟩ hother rfl
  obtain ⟨definition, hmem, hname⟩ := List.mem_flatMap.mp hname
  obtain ⟨otherDefinition, hotherMem, hother⟩ := List.mem_flatMap.mp hother
  have hbrings {definition : Definition} (hmem : definition ∈ definitions)
      (hnative : definition.native? = some native) : native ∈ definitions.filterMap native? :=
    List.mem_filterMap.mpr ⟨definition, hmem, hnative⟩
  have howns {definition : Definition} (hmem : definition ∈ definitions)
      (hclass : definition.className? = some native) :
      native ∈ definitions.filterMap className? :=
    List.mem_filterMap.mpr ⟨definition, hmem, hclass⟩
  rcases mem_names_iff.mp hname with ⟨hclass, rfl⟩ | ⟨hnative, htarget⟩ <;>
    rcases mem_names_iff.mp hother with ⟨hotherClass, rfl⟩ | ⟨hotherNative, hotherTarget⟩
  · rfl
  · exact absurd (howns hmem hclass) (h.natives_apart native (hbrings hotherMem hotherNative))
  · exact absurd (howns hotherMem hotherClass) (h.natives_apart native (hbrings hmem hnative))
  · have hsame : definition = otherDefinition := by
      by_contra hne
      have hsymm : Std.Symm fun a b : Definition =>
          ∀ x, a.native? = some x → ∀ y, b.native? = some y → x ≠ y :=
        ⟨fun _ _ happart x hx y hy => (happart y hy x hx).symm⟩
      have happart := (List.pairwise_filterMap.mp h.natives_once).forall hmem hotherMem hne
      exact happart native hnative native hotherNative rfl
    rw [hsame, hotherTarget] at htarget
    exact (Option.some.inj htarget).symm

end Definition

namespace Namespace

open Defs (Record)

variable {style : DocStyle} {definitions others : List Definition}

/-- An independent definition is taken up when it arrives. -/
theorem acceptsDefinition_of_independent {before after : List Definition}
    {definition : Definition} (h : Definition.Independent (before ++ definition :: after))
    {target : NativeTarget} {contender : Contender}
    (hcontender : definition.contenderAt? target = some contender) :
    (empty.takeUp style before).acceptsDefinition definition = true := by
  have hnone : Definition.contenders target before = [] := by
    refine List.filterMap_eq_nil_iff.mpr fun earlier hearlier => ?_
    have htarget := (Definition.contenderAt?_eq_some_iff.mp hcontender).1
    have happart := (List.pairwise_append.mp (List.pairwise_filterMap.mp h.targets_once)).2.2
      earlier hearlier definition List.mem_cons_self
    refine if_neg fun hearlierTarget => ?_
    exact happart target hearlierTarget target htarget rfl
  have hheld := (heldBy_empty style target).takeUp before
  rw [hnone] at hheld
  rw [hheld.acceptsDefinition_eq hcontender]
  rfl

/-- Independent definitions register the native names of all classes and all identifiers that
they bring. -/
theorem contains_natives_of_independent (h : Definition.Independent definitions)
    (hkinded : ∀ definition ∈ definitions, definition.IsKinded) (native : String) :
    (empty.takeUp style definitions).natives.contains native = true ↔
      ∃ definition ∈ definitions,
        definition.className? = some native ∨ definition.native? = some native := by
  rw [contains_natives_takeUp integrity_empty hkinded]
  constructor
  · rintro (hthere | ⟨before, definition, after, rfl, hregisters⟩)
    · exact absurd hthere Bool.false_ne_true
    · exact ⟨definition, by simp, hregisters.imp_right And.left⟩
  · rintro ⟨definition, hmem, hnames⟩
    obtain ⟨before, after, rfl⟩ := List.append_of_mem hmem
    refine .inr ⟨before, definition, after, rfl, ?_⟩
    rcases hnames with hclass | hbrought
    · exact .inl hclass
    · obtain ⟨target, contender, hcontender⟩ := Definition.exists_contenderAt? hbrought
      exact .inr ⟨hbrought, acceptsDefinition_of_independent h hcontender⟩

/-- Independent definitions leave the same in every order, but for links. -/
theorem takeUp_perm (hperm : definitions.Perm others) (h : Definition.Independent definitions)
    (hkinded : ∀ definition ∈ definitions, definition.IsKinded) :
    SameUpToLinks style (empty.takeUp style others) (empty.takeUp style definitions) := by
  have hotherKinded : ∀ definition ∈ others, definition.IsKinded :=
    fun definition hmem => hkinded definition (hperm.mem_iff.mpr hmem)
  apply sameUpToLinks_of_heldBy
  · intro nativeName
    have howned : nativeName ∈ others.filterMap Definition.className? ↔
        nativeName ∈ definitions.filterMap Definition.className? :=
      (hperm.filterMap Definition.className?).mem_iff.symm
    rw [outline?_takeUp, outline?_takeUp, h.classDefinitions_eq hperm nativeName]
    simp only [howned]
  · intro target
    have hheld := (heldBy_empty style target).takeUp definitions
    have hotherHeld := (heldBy_empty style target).takeUp others
    rw [h.contenders_eq hperm target] at hheld
    exact ⟨_, hotherHeld, hheld⟩
  · rw [constants_takeUp, constants_takeUp]
  · refine natives_eq_of_contains h.unambiguous ?_ ?_ ?_
    · intro native target hfound
      have hnamed := mem_names_of_get?_natives_empty hfound
      exact (hperm.flatMap_right Definition.names).mem_iff.mpr hnamed
    · exact fun native target => mem_names_of_get?_natives_empty
    · intro native
      rw [contains_natives_of_independent (h.perm hperm) hotherKinded,
        contains_natives_of_independent h hkinded]
      simp only [hperm.mem_iff]

/-- Records that have been taken up without an error and do not compete with each other are
taken up without an error in every order, and nothing but links of methods depends on it. -/
theorem defineAll_perm (style : DocStyle) {records permuted : List Record}
    (hperm : records.Perm permuted)
    (hdefined : (empty.defineAll style records).error? = none)
    (hindependent : Definition.Independent (Definition.ofRecords style records)) :
    (empty.defineAll style permuted).error? = none ∧
      SameUpToLinks style (empty.defineAll style permuted).reached
        (empty.defineAll style records).reached := by
  obtain ⟨hdefines, hreached⟩ := defineAll_eq style empty records
  obtain ⟨hpermutedDefines, hpermutedReached⟩ := defineAll_eq style empty permuted
  have hpermuted : (empty.defineAll style permuted).error? = none :=
    hpermutedDefines.mpr fun record hmem => hdefines.mp hdefined record (hperm.mem_iff.mpr hmem)
  refine ⟨hpermuted, ?_⟩
  rw [hreached hdefined, hpermutedReached hpermuted]
  exact takeUp_perm (hperm.filterMap _) hindependent fun _ => isKinded_of_mem_ofRecords

/-- A method and a constructor that arrive before their class, and a function; the other way
round, neither of them is a forward reference. -/
theorem defineAll_perm_of_forward_references :
    let method : Record :=
      ⟨.method, "frob", ⟨[("of-object", [.str "GtkA"]), ("c-name", [.str "a_frob"])]⟩⟩
    let constructor : Record :=
      ⟨.function, "a_new", ⟨[("is-constructor-of", [.str "GtkA"]), ("c-name", [.str "a_new"])]⟩⟩
    let function : Record := ⟨.function, "f", ⟨[("c-name", [.str "f"])]⟩⟩
    let object : Record := ⟨.object, "A", ⟨[("c-name", [.str "GtkA"])]⟩⟩
    let records := [method, constructor, function, object]
    let permuted := [object, function, constructor, method]
    records.Perm permuted ∧ (empty.defineAll .pygtk records).error? = none ∧
      Definition.Independent (Definition.ofRecords .pygtk records) ∧
      (empty.defineAll .pygtk permuted).error? = none ∧
      SameUpToLinks .pygtk (empty.defineAll .pygtk permuted).reached
        (empty.defineAll .pygtk records).reached := by
  intro method constructor function object records permuted
  have hperm : records.Perm permuted := (List.reverse_perm records).symm
  have hindependent : Definition.Independent (Definition.ofRecords .pygtk records) :=
    ⟨by decide, by decide, by decide, by decide⟩
  exact ⟨hperm, by decide, hindependent, defineAll_perm .pygtk hperm (by decide) hindependent⟩

end Namespace

end Stubgen
