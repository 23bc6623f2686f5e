import Stubgen.Proofs.Namespace.Filling

/-!
# What native identifiers come to refer to

While a namespace is filled, every identifier is registered by a definition that names it, and a
definition of a callable registers its identifier only if it is taken up. If no identifier names
two different targets, the table of identifiers is therefore determined by which identifiers it
holds.
-/

namespace Stubgen

/-- No native identifier names two different targets. -/
def Definition.Unambiguous (definitions : List Definition) : Prop :=
  ∀ name ∈ definitions.flatMap names, ∀ other ∈ definitions.flatMap names,
    name.1 = other.1 → name.2 = other.2

instance (definitions : List Definition) : Decidable (Definition.Unambiguous definitions) :=
  inferInstanceAs (Decidable (∀ name ∈ definitions.flatMap Definition.names,
    ∀ other ∈ definitions.flatMap Definition.names, name.1 = other.1 → name.2 = other.2))

namespace Namespace

variable {style : DocStyle} {ns : Namespace}

/-- The place of a definition decides whether the definition is taken up. -/
theorem HeldBy.acceptsDefinition_eq {target : NativeTarget} {holder? : Option Contender}
    (h : ns.HeldBy style target holder?) {definition : Definition} {contender : Contender}
    (hcontender : definition.contenderAt? target = some contender) :
    ns.acceptsDefinition definition = Contender.yields holder? contender := by
  rw [← h.accepts_eq contender]
  obtain ⟨htarget, hcallable⟩ := Definition.contenderAt?_eq_some_iff.mp hcontender
  cases definition with
  | ofFunction function native? =>
    obtain rfl := Option.some.inj htarget
    obtain rfl := Option.some.inj hcallable
    rfl
  | ofMethod nativeName method native? =>
    obtain rfl := Option.some.inj htarget
    obtain rfl := Option.some.inj hcallable
    rfl
  | ofClass _ _ => exact nomatch htarget
  | ofNothing => exact nomatch htarget

/-- A definition registers only identifiers that it names. -/
theorem mem_names_of_get?_natives_apply {definition : Definition} {native : String}
    {target : NativeTarget}
    (h : (ns.apply style definition).natives.get? native = some target) :
    ns.natives.get? native = some target ∨ (native, target) ∈ definition.names := by
  cases definition with
  | ofClass nativeName classDefinition =>
    simp only [apply, get?_natives_confirmClass] at h
    split at h
    · next heq =>
      obtain rfl := Option.some.inj h
      simp [Definition.names, heq]
    · exact .inl h
  | ofFunction function native? =>
    simp only [apply, get?_natives_addFunction] at h
    split at h
    · next haccepted =>
      obtain rfl := Option.some.inj h
      simp [Definition.names, haccepted.1]
    · exact .inl h
  | ofMethod nativeName method native? =>
    simp only [apply, get?_natives_addMethod] at h
    split at h
    · next haccepted =>
      obtain rfl := Option.some.inj h
      simp [Definition.names, haccepted.1]
    · split at h
      · next hnew =>
        obtain rfl := Option.some.inj h
        simp [Definition.names, hnew.1]
      · exact .inl h
  | ofNothing => exact .inl h

/-- What an identifier refers to after definitions, it referred to before or is named so by one
of them. -/
theorem mem_names_of_get?_natives_takeUp {definitions : List Definition} {native : String}
    {target : NativeTarget}
    (h : (ns.takeUp style definitions).natives.get? native = some target) :
    ns.natives.get? native = some target ∨
      (native, target) ∈ definitions.flatMap Definition.names := by
  induction definitions generalizing ns with
  | nil => exact .inl h
  | cons definition rest ih =>
    rw [List.flatMap_cons, List.mem_append]
    rcases ih h with hfirst | hrest
    · exact (mem_names_of_get?_natives_apply hfirst).imp_right .inl
    · exact .inr (.inr hrest)

/-- What is named by definitions is all that the identifiers of a namespace refer to that has
been filled with them. -/
theorem mem_names_of_get?_natives_empty {definitions : List Definition} {native : String}
    {target : NativeTarget}
    (h : (empty.takeUp style definitions).natives.get? native = some target) :
    (native, target) ∈ definitions.flatMap Definition.names :=
  (mem_names_of_get?_natives_takeUp h).resolve_left (by simp [empty])

/-- A definition registers the native name of its class and, if it is taken up, the identifier
that it brings. -/
theorem contains_natives_apply (h : ns.Integrity) (definition : Definition) (native : String) :
    (ns.apply style definition).natives.contains native = true ↔
      ns.natives.contains native = true ∨ definition.className? = some native ∨
        definition.native? = some native ∧ ns.acceptsDefinition definition = true := by
  cases definition with
  | ofClass nativeName classDefinition =>
    simp only [apply, Table.contains, get?_natives_confirmClass, Definition.className?,
      Definition.native?, Definition.contender?]
    split
    · next heq => simp [heq]
    · next hne => simp [Ne.symm hne]
  | ofFunction function native? =>
    simp only [apply, Table.contains, get?_natives_addFunction, acceptsDefinition,
      Definition.className?, Definition.native?, Definition.contender?, Option.bind_some]
    split
    · next haccepted => simp [haccepted]
    · next hrefused => simp [hrefused]
  | ofMethod nativeName method native? =>
    simp only [apply, Table.contains, get?_natives_addMethod, acceptsDefinition,
      Definition.className?, Definition.native?, Definition.contender?, Option.bind_some]
    split
    · next haccepted => exact iff_of_true rfl (.inr (.inr haccepted))
    · next hrefused =>
      split
      · next hnew => exact iff_of_true rfl (.inr (.inl (congrArg some hnew.1.symm)))
      · next hold =>
        refine ⟨.inl, ?_⟩
        rintro (hthere | hclass | haccepted)
        · exact hthere
        · -- The class was there before, so its native name was registered with it.
          obtain rfl := Option.some.inj hclass
          have hknown : ns.class? nativeName ≠ none := fun hnone => hold ⟨rfl, hnone⟩
          obtain ⟨c, hc⟩ := Option.ne_none_iff_exists'.mp hknown
          obtain ⟨target, htarget⟩ := h.class_registered nativeName c hc
          exact Option.isSome_iff_exists.mpr ⟨target, htarget⟩
        · exact absurd haccepted hrefused
  | ofNothing =>
    simp [apply, acceptsDefinition, Definition.className?, Definition.native?,
      Definition.contender?]

/-- The identifiers that are registered after definitions: those that were before, the native
names of all classes, and what was brought by a definition that was taken up when it arrived. -/
theorem contains_natives_takeUp (h : ns.Integrity) {definitions : List Definition}
    (hkinded : ∀ definition ∈ definitions, definition.IsKinded) (native : String) :
    (ns.takeUp style definitions).natives.contains native = true ↔
      ns.natives.contains native = true ∨
        ∃ before definition after, definitions = before ++ definition :: after ∧
          (definition.className? = some native ∨ definition.native? = some native ∧
            (ns.takeUp style before).acceptsDefinition definition = true) := by
  induction definitions generalizing ns with
  | nil => simp [takeUp]
  | cons definition rest ih =>
    have hfirst := hkinded definition List.mem_cons_self
    have hrest := fun other hother => hkinded other (List.mem_cons_of_mem _ hother)
    refine (ih (h.apply hfirst) hrest).trans ?_
    rw [contains_natives_apply h]
    constructor
    · rintro ((hthere | hregisters) | ⟨before, later, after, rfl, hregisters⟩)
      · exact .inl hthere
      · exact .inr ⟨[], definition, rest, rfl, hregisters⟩
      · exact .inr ⟨definition :: before, later, after, rfl, hregisters⟩
    · rintro (hthere | ⟨before, later, after, hsplit, hregisters⟩)
      · exact .inl (.inl hthere)
      · cases before with
        | nil =>
          obtain ⟨rfl, rfl⟩ := List.cons.inj hsplit
          exact .inl (.inr hregisters)
        | cons first before =>
          obtain ⟨rfl, rfl⟩ := List.cons.inj hsplit
          exact .inr ⟨before, later, after, rfl, hregisters⟩

end Namespace

end Stubgen
