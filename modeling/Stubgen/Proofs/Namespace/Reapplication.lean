import Stubgen.Proofs.Namespace.Likeness

/-!
# Taking up the same records again

A definition file may be included into one module twice, and its records then arrive twice. The
second time they find other holders at their places, so they need not be taken up and refused as
they were before. Still nothing changes but links: every place ends with the holder that it had,
and whatever is taken up the second time was taken up the first time.
-/

namespace Stubgen.Namespace

open Defs (Record)

variable {style : DocStyle} {definitions : List Definition}

/-- What is known of a class stays the same when its definitions arrive again. -/
theorem outline?_takeUp_again (style : DocStyle) (ns : Namespace) (definitions : List Definition)
    (nativeName : String) :
    ((ns.takeUp style definitions).takeUp style definitions).outline? nativeName =
      (ns.takeUp style definitions).outline? nativeName := by
  rw [outline?_takeUp style (ns.takeUp style definitions), outline?_takeUp style ns]
  cases (definitions.filterMap (Definition.classDefinition? nativeName)).getLast? with
  | some classDefinition => rfl
  | none =>
    by_cases hnamed : nativeName ∈ definitions.filterMap Definition.className?
    · simp [hnamed]
    · simp [hnamed]

/-- Every place of an empty namespace that is filled twice ends with the holder that it had
after the first time. -/
theorem heldBy_takeUp_again (style : DocStyle) (definitions : List Definition)
    (target : NativeTarget) :
    ∃ holder?, ((empty.takeUp style definitions).takeUp style definitions).HeldBy style target
        holder? ∧
      (empty.takeUp style definitions).HeldBy style target holder? := by
  have hfirst := (heldBy_empty style target).takeUp definitions
  have hagain := hfirst.takeUp definitions
  rw [Contender.lastHolder_again] at hagain
  exact ⟨_, hagain, hfirst⟩

/-- A definition that is taken up the second time was taken up the first time. -/
theorem acceptsDefinition_of_again {before : List Definition} {definition : Definition}
    {target : NativeTarget} {contender : Contender}
    (hcontender : definition.contenderAt? target = some contender)
    (hagain : ((empty.takeUp style definitions).takeUp style before).acceptsDefinition definition
      = true) :
    (empty.takeUp style before).acceptsDefinition definition = true := by
  have hempty := heldBy_empty style target
  have hfirst := hempty.takeUp before
  have hsecond := (hempty.takeUp definitions).takeUp before
  rw [hfirst.acceptsDefinition_eq hcontender]
  rw [hsecond.acceptsDefinition_eq hcontender] at hagain
  -- The first run begins with a place that nobody holds, the narrowest of all.
  exact Contender.yields_of_yields_lastHolder (Nat.zero_le _) _ hagain

/-- No identifier is registered the second time that was not registered the first time. -/
theorem contains_natives_takeUp_again
    (hkinded : ∀ definition ∈ definitions, definition.IsKinded) (native : String) :
    ((empty.takeUp style definitions).takeUp style definitions).natives.contains native = true ↔
      (empty.takeUp style definitions).natives.contains native = true := by
  have hfirst : (empty.takeUp style definitions).Integrity := integrity_empty.takeUp hkinded
  rw [contains_natives_takeUp hfirst hkinded]
  refine ⟨?_, .inl⟩
  rintro (hthere | ⟨before, definition, after, hsplit, hregisters⟩)
  · exact hthere
  · refine (contains_natives_takeUp integrity_empty hkinded native).mpr
      (.inr ⟨before, definition, after, hsplit, ?_⟩)
    rcases hregisters with hclass | ⟨hbrought, hagain⟩
    · exact .inl hclass
    · obtain ⟨target, contender, hcontender⟩ := Definition.exists_contenderAt? hbrought
      exact .inr ⟨hbrought, acceptsDefinition_of_again hcontender hagain⟩

/-- Definitions that name no identifier for two targets change nothing but links when they
arrive again. -/
theorem takeUp_again (hkinded : ∀ definition ∈ definitions, definition.IsKinded)
    (hunambiguous : Definition.Unambiguous definitions) :
    SameUpToLinks style ((empty.takeUp style definitions).takeUp style definitions)
      (empty.takeUp style definitions) := by
  apply sameUpToLinks_of_heldBy
  · exact outline?_takeUp_again style empty definitions
  · exact heldBy_takeUp_again style definitions
  · exact constants_takeUp style _ definitions
  · refine natives_eq_of_contains hunambiguous ?_ (fun _ _ => mem_names_of_get?_natives_empty)
      (contains_natives_takeUp_again hkinded)
    intro native target h
    exact (mem_names_of_get?_natives_takeUp h).elim mem_names_of_get?_natives_empty id

/-- Records that have been taken up without an error, and that name no native identifier for two
targets, are taken up without an error again, and nothing changes but links of methods. -/
theorem defineAll_again (style : DocStyle) (records : List Record)
    (hdefined : (empty.defineAll style records).error? = none)
    (hunambiguous : Definition.Unambiguous (Definition.ofRecords style records)) :
    let ns := (empty.defineAll style records).reached
    (ns.defineAll style records).error? = none ∧
      SameUpToLinks style (ns.defineAll style records).reached ns := by
  intro ns
  obtain ⟨hdefines, hreached⟩ := defineAll_eq style empty records
  obtain ⟨hdefinesAgain, hreachedAgain⟩ := defineAll_eq style ns records
  have hagain : (ns.defineAll style records).error? = none :=
    hdefinesAgain.mpr (hdefines.mp hdefined)
  refine ⟨hagain, ?_⟩
  rw [hreachedAgain hagain]
  have hns : ns = empty.takeUp style (Definition.ofRecords style records) := hreached hdefined
  rw [hns]
  exact takeUp_again (fun _ => isKinded_of_mem_ofRecords) hunambiguous

/-- Three definitions of one function, of which the first to arrive is shorter than the last,
and a method that arrives before its class and therefore loses its link the second time. -/
theorem defineAll_again_of_rivals :
    let parameter (name : String) : Defs.Form := .list [.str "gint", .str name]
    let records : List Record :=
      [⟨.method, "frob", ⟨[("of-object", [.str "GtkA"]), ("c-name", [.str "a_frob"])]⟩⟩,
        ⟨.function, "f", ⟨[("c-name", [.str "f_one"]), ("parameters", [parameter "a"])]⟩⟩,
        ⟨.function, "f", ⟨[("c-name", [.str "f_three"]),
          ("parameters", [parameter "a", parameter "b", parameter "c"])]⟩⟩,
        ⟨.function, "f", ⟨[("c-name", [.str "f_two"]),
          ("parameters", [parameter "a", parameter "b"])]⟩⟩,
        ⟨.object, "A", ⟨[("c-name", [.str "GtkA"])]⟩⟩]
    let ns := (empty.defineAll .pygtk records).reached
    (empty.defineAll .pygtk records).error? = none ∧
      Definition.Unambiguous (Definition.ofRecords .pygtk records) ∧
      (ns.defineAll .pygtk records).error? = none ∧
      SameUpToLinks .pygtk (ns.defineAll .pygtk records).reached ns :=
  ⟨by decide, by decide, defineAll_again .pygtk _ (by decide) (by decide)⟩

end Stubgen.Namespace
