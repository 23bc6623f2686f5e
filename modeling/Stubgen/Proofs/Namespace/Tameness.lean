import Stubgen.Proofs.Namespace.BuildSteps
import Stubgen.Proofs.Text.Tameness

/-!
# Namespaces of tame texts

The documentation in a namespace is made of texts that records and wrappers bring. If all of these
are tame, so is every line of documentation, and the names and the tags from which further lines are
made. This holds of what a record defines, is kept when a definition is taken up, and when wrappers
or constants are, and so it holds of every namespace that is built in steps.
-/

namespace Stubgen

open Defs (Form Record)

/-! ## Texts of records -/

/-- A form is the text, or holds it at any depth. -/
inductive Defs.Form.Holds : Form → String → Prop where
  | atom (text : String) : Holds (.atom text) text
  | str (text : String) : Holds (.str text) text
  | item {items : List Form} {form : Form} {text : String} (hmem : form ∈ items)
    (h : Holds form text) : Holds (.list items) text

/-- The text is the name of a record, or a value holds it. -/
def Defs.Record.Holds (record : Record) (text : String) : Prop :=
  text = record.name ∨ ∃ tag, ∃ form ∈ record.values tag, form.Holds text

/-- All texts in the form are tame. -/
def Defs.Form.IsTame (form : Form) : Prop :=
  ∀ text, form.Holds text → Stubgen.IsTame text

/-- All texts in the record are tame. -/
def Defs.Record.IsTame (record : Record) : Prop :=
  ∀ text, record.Holds text → Stubgen.IsTame text

variable {form : Form} {record : Record} {text tag name nativeName : String}

/-- The text of a tame form is tame. -/
theorem Defs.Form.IsTame.ofText (h : form.IsTame) (htext : form.text? = some text) :
    Stubgen.IsTame text := by
  refine h text ?_
  cases form with
  | atom word =>
    obtain rfl := Option.some.inj htext
    exact .atom word
  | str word =>
    obtain rfl := Option.some.inj htext
    exact .str word
  | list items => exact nomatch htext

/-- The items of a tame list are tame. -/
theorem Defs.Form.IsTame.ofItem {items : List Form} (h : IsTame (.list items))
    (hform : form ∈ items) : form.IsTame := fun text htext =>
  h text (.item hform htext)

/-- A string is tame if its text is. -/
theorem Defs.Form.isTame_str_iff : (Form.str text).IsTame ↔ Stubgen.IsTame text := by
  refine ⟨fun h => h.ofText rfl, fun h other hother => ?_⟩
  cases hother with
  | str _ => exact h

/-- A list is tame if its items are. -/
theorem Defs.Form.isTame_list_iff {items : List Form} :
    (Form.list items).IsTame ↔ ∀ form ∈ items, form.IsTame := by
  refine ⟨fun h _ hform => h.ofItem hform, fun h text htext => ?_⟩
  cases htext with
  | item hform htext => exact h _ hform text htext

/-- The values of a tame record are tame. -/
theorem Defs.Record.IsTame.ofValue (h : record.IsTame) (hform : form ∈ record.values tag) :
    form.IsTame := fun text htext =>
  h text (.inr ⟨tag, form, hform, htext⟩)

/-- A record with a tame name and with tame forms in its entries is tame. -/
theorem Defs.Record.isTame_of_entries (hname : Stubgen.IsTame record.name)
    (hentries : ∀ entry ∈ record.tags.entries, ∀ form ∈ entry.2, form.IsTame) : record.IsTame := by
  rintro text (rfl | ⟨tag, form, hform, htext⟩)
  · exact hname
  · unfold Record.values at hform
    cases hvalues : record.tags.get? tag with
    | none =>
      rw [hvalues] at hform
      exact absurd hform List.not_mem_nil
    | some values =>
      rw [hvalues] at hform
      exact hentries (tag, values) (mem_of_valueAt? hvalues) form hform text htext

/-- The name of a tame record is tame. -/
theorem Defs.Record.IsTame.ofName (h : record.IsTame) : Stubgen.IsTame record.name :=
  h record.name (.inl rfl)

/-- The first text under a tag of a tame record is tame. -/
theorem Defs.Record.IsTame.ofFirstText (h : record.IsTame)
    (htext : record.firstText? tag = some text) : Stubgen.IsTame text := by
  obtain ⟨form, hform, hform'⟩ := Option.bind_eq_some_iff.mp htext
  obtain ⟨word, hword, rfl⟩ := Option.map_eq_some_iff.mp hform'
  exact ((h.ofValue (List.mem_of_head? hform)).ofText hword).trimmed

/-! ## Definitions -/

/-- The name and the tag are tame. -/
structure TypedName.IsTame (type : TypedName) : Prop where
  name : Stubgen.IsTame type.name
  tag : Stubgen.IsTame type.tag

/-- The texts that a callable is documented with are tame. -/
structure Callable.IsTame (callable : Callable) : Prop where
  comments : ∀ line ∈ callable.comments, Stubgen.IsTame line
  types : ∀ type ∈ callable.types, type.IsTame

/-- The texts with which a class is documented, and shown in the documentation of callables, are
tame. -/
structure ClassDefinition.IsTame (definition : ClassDefinition) : Prop where
  name : Stubgen.IsTame definition.name
  module : ∀ module ∈ definition.module?, Stubgen.IsTame module
  comments : ∀ line ∈ definition.comments, Stubgen.IsTame line

namespace Definition

/-- The texts of a definition that come into documentation are tame. -/
def IsTame : Definition → Prop
  | .ofClass _ definition => definition.IsTame
  | .ofFunction function _ => function.IsTame
  | .ofMethod nativeName method native? =>
    Stubgen.IsTame nativeName ∧ method.IsTame ∧ Stubgen.IsTame method.name ∧
      ∀ native ∈ native?, Stubgen.IsTame native
  | .ofNothing => True

/-- The lines before a link are tame if the record is. -/
theorem isTame_of_mem_commentsOf (h : record.IsTame) {line : String}
    (hline : line ∈ commentsOf record) : Stubgen.IsTame line := by
  unfold commentsOf at hline
  rcases List.mem_append.mp hline with hdeprecation | hidentifier
  · split at hdeprecation
    · split at hdeprecation
      · next text htext =>
        rw [List.mem_singleton.mp hdeprecation]
        exact isTame_append.mpr ⟨by decide, h.ofFirstText htext⟩
      · rw [List.mem_singleton.mp hdeprecation]
        decide
    · exact absurd hdeprecation List.not_mem_nil
  · obtain ⟨identifier, hfirst, rfl⟩ := List.mem_map.mp hidentifier
    simp only [isTame_append]
    exact ⟨⟨by decide, h.ofFirstText (Option.mem_toList.mp hfirst)⟩, by decide⟩

/-- The definition of a class is tame if the record is. -/
theorem isTame_classOf (style : DocStyle) (h : record.IsTame)
    (hnative : Stubgen.IsTame nativeName) : (classOf style record nativeName).IsTame where
  name := h.ofName
  module _ hmodule := h.ofFirstText hmodule
  comments _ hline :=
    isTame_of_line? (fun _ hmodule => h.ofFirstText hmodule) hnative
      (fun _ hnone => absurd hnone (Option.not_mem_none _)) (Option.mem_toList.mp hline)

/-- The parameter of a tame form is tame. -/
theorem isTame_of_ofForm? {parameter : Parameter} (h : form.IsTame)
    (hparameter : Parameter.ofForm? form = some parameter) : parameter.typed.IsTame := by
  unfold Parameter.ofForm? at hparameter
  split at hparameter
  · split at hparameter
    · next tag name htag hname =>
      obtain rfl := Option.some.inj hparameter
      have hbare : Stubgen.IsTame (Parameter.bareName name) := by
        have htext := ((h.ofItem (List.mem_cons_of_mem _ List.mem_cons_self)).ofText hname).trimmed
        refine htext.of_subset ?_
        rw [Text.trimmed, String.toList_ofList]
        exact ((Text.dropStart_suffix _ _).trans (Text.dropStart_suffix _ _)).subset
      exact ⟨hbare, ((h.ofItem List.mem_cons_self).ofText htag).trimmed⟩
    · exact nomatch hparameter
  · exact nomatch hparameter

/-- A callable is documented with tame texts if the record is tame. -/
theorem isTame_callableOf (h : record.IsTame) (name : String) (isMethod : Bool) (returns : String) :
    (callableOf record name isMethod returns).IsTame where
  comments _ hline := isTame_of_mem_commentsOf h hline
  types type htype := by
    obtain ⟨parameter, hparameter, rfl⟩ := List.mem_map.mp htype
    obtain ⟨form, hform, hparameter⟩ := List.mem_filterMap.mp hparameter
    exact isTame_of_ofForm? (h.ofValue hform) hparameter

/-- The names of the properties of a tame record are tame. -/
theorem isTame_of_mem_propertiesOf (h : record.IsTame) (hname : name ∈ propertiesOf record) :
    Stubgen.IsTame name := by
  obtain ⟨form, hform, hname⟩ := List.mem_filterMap.mp hname
  have hvalue := h.ofValue hform
  split at hname
  · next items =>
    obtain ⟨text, htext, rfl⟩ := Option.map_eq_some_iff.mp hname
    obtain ⟨first, hfirst, htext⟩ := Option.bind_eq_some_iff.mp htext
    exact ((hvalue.ofItem (List.mem_of_head? hfirst)).ofText htext).trimmed
  · obtain ⟨text, htext, rfl⟩ := Option.map_eq_some_iff.mp hname
    exact (hvalue.ofText htext).trimmed

/-- A constructor is documented with tame texts if the record is tame. -/
theorem isTame_constructorOf (h : record.IsTame) (nativeName : String) :
    (constructorOf record nativeName).IsTame := by
  have hcallable := isTame_callableOf h constructorName true nativeName
  unfold constructorOf
  split
  · refine ⟨hcallable.comments, fun type htype => ?_⟩
    obtain ⟨name, hname, rfl⟩ := List.mem_map.mp htype
    have hunspecified : Stubgen.IsTame Tag.unspecified := by decide
    exact ⟨isTame_of_mem_propertiesOf h hname, hunspecified⟩
  · exact hcallable

/-- What a tame record defines is tame. -/
theorem isTame_of_ofRecord {style : DocStyle} {definition : Definition} (h : record.IsTame)
    (hrecord : ofRecord style record = .ok definition) : definition.IsTame := by
  have hcallable {isMethod : Bool} (hrecord : callableOfRecord record isMethod = .ok definition) :
      definition.IsTame := by
    have hnative : ∀ native ∈ record.firstText? "c-name", Stubgen.IsTame native :=
      fun _ hnative => h.ofFirstText hnative
    unfold callableOfRecord at hrecord
    split at hrecord
    · next nativeName hconstructor =>
      obtain rfl := Except.ok.inj hrecord
      have hname : (constructorOf record nativeName).name = constructorName := by
        unfold constructorOf
        split <;> rfl
      exact ⟨h.ofFirstText hconstructor, isTame_constructorOf h nativeName, hname ▸ by decide,
        hnative⟩
    · split at hrecord
      · split at hrecord
        · next nativeName howner =>
          obtain rfl := Except.ok.inj hrecord
          exact ⟨h.ofFirstText howner, isTame_callableOf h _ _ _, h.ofName, hnative⟩
        · exact nomatch hrecord
      · obtain rfl := Except.ok.inj hrecord
        exact isTame_callableOf h _ _ _
  unfold ofRecord at hrecord
  split at hrecord
  · exact hcallable hrecord
  · exact hcallable hrecord
  · obtain rfl := Except.ok.inj hrecord
    trivial
  · split at hrecord
    · next nativeName hnative =>
      obtain rfl := Except.ok.inj hrecord
      exact isTame_classOf style h (h.ofFirstText hnative)
    · exact nomatch hrecord

end Definition

namespace Namespace

/-- The texts in a namespace that come into documentation are tame. -/
structure IsTame (ns : Namespace) : Prop where
  callables : ∀ target callable, ns.at? target = some callable → callable.IsTame
  classes : ∀ nativeName c, ns.outline? nativeName = some c → c.definition.IsTame

/-- A step brings a text into a namespace: the text is one of a record, or a name or a tag that a
wrapper tells. -/
def BuildStep.Brings (text : String) : BuildStep → Prop
  | .define _ record => record.Holds text
  | .applyOverrides set =>
    ∃ entry ∈ set.wrappers.entries, ∃ types, entry.2.parameters? = some types ∧
      ∃ type ∈ types, text = type.name ∨ text = type.tag
  | .augment .. => False

variable {ns : Namespace} {style : DocStyle} {definition : Definition}

/-! ## Tame namespaces -/

/-- There is no documentation in an empty namespace. -/
theorem isTame_empty : empty.IsTame where
  callables target _ hthere := by cases target <;> exact nomatch hthere
  classes _ _ hthere := nomatch hthere

/-- What is assumed of a class with a tame name is tame. -/
theorem isTame_assumedDefinition (h : Stubgen.IsTame nativeName) :
    (Class.assumedDefinition nativeName).IsTame := by
  unfold Class.assumedDefinition
  split
  · next rest hrest =>
    have hsuffix : rest <:+ nativeName.toList := by
      have hdropped := Text.dropStart_suffix "Gtk".toList nativeName.toList
      rwa [Text.dropStart, hrest, Option.getD_some] at hdropped
    refine ⟨h.of_subset hsuffix.subset, fun module hmodule => ?_, fun _ => nofun⟩
    rw [← Option.mem_some.mp hmodule]
    decide
  · exact ⟨h, fun _ hnone => absurd hnone (Option.not_mem_none _), fun _ => nofun⟩

/-- What is known or assumed of a class with a tame name is tame. -/
theorem IsTame.classOrAssumed (h : ns.IsTame) (hnative : Stubgen.IsTame nativeName) :
    (ns.classOrAssumed nativeName).definition.IsTame := by
  have hclass := h.classes nativeName
  unfold outline? at hclass
  unfold Namespace.classOrAssumed
  cases hthere : ns.class? nativeName with
  | none => exact isTame_assumedDefinition hnative
  | some c =>
    rw [hthere] at hclass
    exact hclass c.withoutMethods rfl

/-- A tame name is shown by a tame one. -/
theorem IsTame.shownName (h : ns.IsTame) (hnative : Stubgen.IsTame nativeName) :
    Stubgen.IsTame (ns.shownName nativeName) := by
  have hclass := (h.classOrAssumed hnative).name
  unfold Namespace.classOrAssumed at hclass
  unfold Namespace.shownName displayName?
  cases hthere : ns.class? nativeName with
  | none => exact hnative
  | some c => rwa [hthere] at hclass

/-- The link of a tame method is tame. -/
theorem IsTame.methodLink (h : ns.IsTame) (style : DocStyle) {method : Callable}
    {native? : Option String} (hnative : Stubgen.IsTame nativeName)
    (hname : Stubgen.IsTame method.name) (hidentifier : ∀ native ∈ native?, Stubgen.IsTame native)
    {line : String} (hline : methodLink? style (ns.classOrAssumed nativeName).definition.module?
      nativeName method native? = some line) : Stubgen.IsTame line := by
  obtain ⟨native, hfound, hline⟩ := Option.bind_eq_some_iff.mp hline
  refine isTame_of_line? (h.classOrAssumed hnative).module hnative (fun shown hshown => ?_) hline
  cases style with
  | pygtk => exact Option.some.inj hshown ▸ hname
  | gnome => exact Option.some.inj hshown ▸ hidentifier native hfound

/-! ## Steps -/

/-- A namespace stays tame when it takes up a tame definition. -/
theorem IsTame.apply (h : ns.IsTame) (style : DocStyle) (hdefinition : definition.IsTame) :
    (ns.apply style definition).IsTame where
  callables target callable hthere := by
    have hold := h.callables target callable
    cases definition with
    | ofClass nativeName classDefinition =>
      exact hold ((at?_confirmClass ns nativeName classDefinition target).symm.trans hthere)
    | ofFunction function native? =>
      rw [Namespace.apply, at?_addFunction] at hthere
      split at hthere
      · rcases eq_or_eq_of_settle hthere with rfl | hbefore
        · exact hdefinition
        · exact hold hbefore
      · exact hold hthere
    | ofMethod nativeName method native? =>
      obtain ⟨hnative, hmethod, hname, hidentifier⟩ := hdefinition
      simp only [Namespace.apply, at?_addMethod] at hthere
      split at hthere
      · rcases eq_or_eq_of_settle hthere with rfl | hbefore
        · refine ⟨fun line hline => ?_, hmethod.types⟩
          rcases List.mem_append.mp hline with hown | hlink
          · exact hmethod.comments line hown
          · exact h.methodLink style hnative hname hidentifier (Option.mem_toList.mp hlink)
        · exact hold hbefore
      · exact hold hthere
    | ofNothing => exact hold hthere
  classes nativeName c hthere := by
    have hold := h.classes nativeName c
    have hassumed (hnative : Stubgen.IsTame nativeName)
        (hc : (ns.outline? nativeName).getD (.provisional nativeName) = c) :
        c.definition.IsTame := by
      cases hknown : ns.outline? nativeName with
      | none =>
        rw [hknown] at hc
        rw [← hc]
        exact isTame_assumedDefinition hnative
      | some known =>
        rw [hknown] at hc
        exact hold (hknown.trans (congrArg some hc))
    rw [outline?_apply] at hthere
    cases definition with
    | ofClass other classDefinition =>
      rw [Definition.outline] at hthere
      split at hthere
      · obtain rfl := Option.some.inj hthere
        exact hdefinition
      · exact hold hthere
    | ofFunction function native? => exact hold hthere
    | ofMethod other method native? =>
      rw [Definition.outline] at hthere
      split at hthere
      · next heq => exact hassumed (heq ▸ hdefinition.1) (Option.some.inj hthere)
      · exact hold hthere
    | ofNothing => exact hold hthere

/-- A namespace stays tame when one of its callables is revised, if the revision is tame. -/
theorem IsTame.reviseCallable (h : ns.IsTame) (native : String) {revise : Callable → Callable}
    (hrevise : ∀ callable, callable.IsTame → (revise callable).IsTame) :
    (ns.reviseCallable native revise).IsTame where
  callables target callable hthere := by
    rw [at?_reviseCallable] at hthere
    split at hthere
    · obtain ⟨old, hold, rfl⟩ := Option.map_eq_some_iff.mp hthere
      exact hrevise old (h.callables target old hold)
    · exact h.callables target callable hthere
  classes nativeName c hthere := by
    rw [outline?_reviseCallable] at hthere
    exact h.classes nativeName c hthere

/-- A namespace stays tame when wrappers are applied that tell tame names and tags. -/
theorem IsTame.applyOverrides (h : ns.IsTame) {set : OverrideSet}
    (hset : ∀ entry ∈ set.wrappers.entries, ∀ types, entry.2.parameters? = some types →
      ∀ type ∈ types, type.IsTame) : (ns.applyOverrides set).IsTame := by
  unfold Namespace.applyOverrides
  generalize set.wrappers.entries = entries at hset
  induction entries generalizing ns with
  | nil => exact h
  | cons entry rest ih =>
    obtain ⟨hentry, hrest⟩ := List.forall_mem_cons.mp hset
    refine ih (h.reviseCallable entry.1 fun callable hcallable => ?_) hrest
    unfold Override.refine
    split
    · next types returns htypes _ => exact ⟨hcallable.comments, hentry types htypes⟩
    · exact hcallable

/-- A namespace stays tame in a step that brings tame texts. -/
theorem IsTame.build (h : ns.IsTame) {step : BuildStep}
    (hstep : ∀ text, step.Brings text → Stubgen.IsTame text) : (ns.build step).IsTame := by
  cases step with
  | define style record =>
    simp only [Namespace.build]
    split
    · exact h
    · next defined hdefine =>
      obtain ⟨definition, hrecord, rfl⟩ := define_eq_ok_iff.mp hdefine
      exact h.apply style (Definition.isTame_of_ofRecord hstep hrecord)
  | applyOverrides set =>
    refine h.applyOverrides fun entry hentry types htypes type htype => ?_
    have hbrings (text : String) (htext : text = type.name ∨ text = type.tag) :=
      hstep text ⟨entry, hentry, types, htypes, type, htype, htext⟩
    exact ⟨hbrings type.name (.inl rfl), hbrings type.tag (.inr rfl)⟩
  | augment introspector module =>
    simp only [Namespace.build, perform, augmentFrom]
    rcases introspector.examine module with e | none | constants
    · exact h
    · exact h
    · obtain ⟨lines, hlines⟩ := exists_augment_eq ns constants
      simp only [hlines]
      refine ⟨fun target callable hthere => h.callables target callable ?_, h.classes⟩
      cases target <;> exact hthere

/-- A namespace that is built of tame texts is tame. -/
theorem isTame_ofSteps {steps : List BuildStep}
    (hsteps : ∀ step ∈ steps, ∀ text, step.Brings text → Stubgen.IsTame text) :
    (ofSteps steps).IsTame := by
  induction steps using List.reverseRecOn with
  | nil => exact isTame_empty
  | append_singleton steps step ih =>
    obtain ⟨hbefore, hlast⟩ := List.forall_mem_append.mp hsteps
    rw [ofSteps_append_singleton]
    exact (ih hbefore).build (hlast step List.mem_cons_self)

end Namespace

end Stubgen
