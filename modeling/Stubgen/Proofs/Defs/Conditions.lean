import Mathlib.Logic.Relation
import Stubgen.Proofs.Defs.Declarations
import Stubgen.Proofs.Defs.Visits

/-!
# Conditions do not matter

A condition stands for the forms that it holds. This file proves that forms expand to the same
records, cache and error whether a condition is there or the forms that it holds are there in its
place, however deep it lies in other conditions. Opening conditions comes to an end with forms of
which none is a condition, and if these include no other file, the records are theirs, one of each.
-/

namespace Stubgen.Defs

open Files (Key Path Tree)

/-- The head announces a condition, of whichever polarity. -/
def Form.AnnouncesCondition (head : Form) : Prop :=
  head.text? = some "ifdef" ∨ head.text? = some "ifndef"

/-- The form only stands for other forms. -/
inductive Form.StandsFor : Form → List Form → Prop where
  /-- What follows the name of a condition stands under the condition. -/
  | named {head name : Form} (forms : List Form) (hhead : head.AnnouncesCondition)
      (hname : name.text?.isSome) : StandsFor (.list (head :: name :: forms)) forms
  /-- If a list stands in the place of the name, it stands under the condition as well. -/
  | unnamed {head : Form} (items forms : List Form) (hhead : head.AnnouncesCondition) :
      StandsFor (.list (head :: .list items :: forms)) (.list items :: forms)
  | bare {head : Form} (hhead : head.AnnouncesCondition) : StandsFor (.list [head]) []
  | empty : StandsFor (.list []) []

/-- One of the forms has given way to the forms that it stands for, or has done so inside of a
condition, behind the first argument of the condition. -/
inductive Opens : List Form → List Form → Prop where
  | here (before after : List Form) {form : Form} {forms : List Form} (hform : form.StandsFor forms) :
      Opens (before ++ form :: after) (before ++ forms ++ after)
  | inside (before after : List Form) {head first : Form} {items items' : List Form}
      (hhead : head.AnnouncesCondition) (hitems : Opens items items') :
      Opens (before ++ .list (head :: first :: items) :: after)
        (before ++ .list (head :: first :: items') :: after)

/-- The same among forms at the top: the forms in the place of another one are on its line. -/
inductive OpensAtTop : List TopLevel → List TopLevel → Prop where
  | at_line (before after : List TopLevel) {top : TopLevel} {forms : List Form}
      (hforms : Opens [top.form] forms) :
      OpensAtTop (before ++ top :: after) (before ++ forms.map (⟨top.line, ·⟩) ++ after)

/-! ## Directives of forms that give way -/

namespace Form

variable {head form : Form} {forms : List Form}

/-- Conditions are told by their heads. -/
theorem announcesCondition_iff : head.AnnouncesCondition ↔ Directive.isCondition head = true := by
  simp [AnnouncesCondition, Directive.isCondition]

/-- A form stands for the forms that it is opened to. -/
theorem standsFor_iff : form.StandsFor forms ↔ Directive.opened form = .inl forms := by
  constructor
  · intro h
    cases h with
    | @named head name forms hhead hname =>
      cases name with
      | list items => exact absurd hname Bool.false_ne_true
      | _ => rw [Directive.opened, if_pos (announcesCondition_iff.mp hhead)]; rfl
    | unnamed items forms hhead =>
      rw [Directive.opened, if_pos (announcesCondition_iff.mp hhead)]
      rfl
    | bare hhead =>
      rw [Directive.opened, if_pos (announcesCondition_iff.mp hhead)]
      rfl
    | empty => rfl
  · intro h
    unfold Directive.opened at h
    split at h
    · obtain rfl := Sum.inl.inj h
      exact .empty
    · next head rest =>
      split at h
      · next hhead =>
        obtain rfl := Sum.inl.inj h
        have hhead := announcesCondition_iff.mpr hhead
        cases rest with
        | nil => exact .bare hhead
        | cons first rest =>
          cases first with
          | list items => exact .unnamed items rest hhead
          | atom text => exact .named rest hhead rfl
          | str text => exact .named rest hhead rfl
      · exact absurd h Sum.inr_ne_inl
    · exact absurd h Sum.inr_ne_inl

end Form

/-- The directives of forms that follow each other. -/
theorem ofForms_append (forms rest : List Form) :
    Directive.ofForms (forms ++ rest) = Directive.ofForms forms ++ Directive.ofForms rest := by
  induction forms with
  | nil => rw [Directive.ofForms, List.nil_append, List.nil_append]
  | cons form forms ih => rw [List.cons_append, Directive.ofForms, ih, Directive.ofForms,
      List.append_assoc]

/-- The directives of a form between others. -/
theorem ofForms_middle (before after : List Form) (form : Form) :
    Directive.ofForms (before ++ form :: after) =
      Directive.ofForms before ++ (Directive.ofForm form ++ Directive.ofForms after) := by
  rw [ofForms_append, Directive.ofForms]

/-- Behind its first argument, a condition takes up the directives of its arguments. -/
theorem ofForm_condition {head : Form} (hhead : head.AnnouncesCondition) (first : Form)
    {items items' : List Form} (h : Directive.ofForms items = Directive.ofForms items') :
    Directive.ofForm (.list (head :: first :: items)) =
      Directive.ofForm (.list (head :: first :: items')) := by
  have hhead' := Form.announcesCondition_iff.mp hhead
  cases first with
  | list held => simp only [Directive.ofForm, if_pos hhead', h]
  | atom text => simp only [Directive.ofForm, if_pos hhead', h]
  | str text => simp only [Directive.ofForm, if_pos hhead', h]

/-- Forms keep their directives when one of them gives way. -/
theorem Opens.ofForms_eq {forms forms' : List Form} (h : Opens forms forms') :
    Directive.ofForms forms = Directive.ofForms forms' := by
  induction h with
  | here before after hform =>
    rw [ofForms_middle, Directive.ofForm_of_opened_forms (Form.standsFor_iff.mp hform),
      ofForms_append, ofForms_append, List.append_assoc]
  | inside before after hhead _ ih =>
    rw [ofForms_middle, ofForms_middle, ofForm_condition hhead _ ih]

/-- The directives of forms at the top that follow each other. -/
theorem ofTopLevels_append (forms rest : List TopLevel) :
    Directive.ofTopLevels (forms ++ rest) =
      Directive.ofTopLevels forms ++ Directive.ofTopLevels rest :=
  List.flatMap_append

/-- Forms at the top keep their directives, with their lines, when one of them gives way. -/
theorem OpensAtTop.ofTopLevels_eq {forms forms' : List TopLevel} (h : OpensAtTop forms forms') :
    Directive.ofTopLevels forms = Directive.ofTopLevels forms' := by
  obtain ⟨before, after, hforms⟩ := h
  next top forms =>
  have hone : Directive.ofTopLevels [top] = Directive.ofTopLevels (forms.map (⟨top.line, ·⟩)) :=
    (Directive.ofTopLevels_map top.line [top.form]).trans
      ((congrArg _ hforms.ofForms_eq).trans (Directive.ofTopLevels_map top.line forms).symm)
  rw [← List.singleton_append, ofTopLevels_append, ofTopLevels_append, hone, ofTopLevels_append,
    ofTopLevels_append, List.append_assoc]

/-- However often forms have given way, they have the same directives. -/
theorem ofTopLevels_eq_of_eqvGen {forms forms' : List TopLevel}
    (h : Relation.EqvGen OpensAtTop forms forms') :
    Directive.ofTopLevels forms = Directive.ofTopLevels forms' := by
  induction h with
  | rel _ _ hopens => exact hopens.ofTopLevels_eq
  | refl => rfl
  | symm _ _ _ ih => exact ih.symm
  | trans _ _ _ _ _ ih ih' => exact ih.trans ih'

/-! ## Forms without conditions -/

/-- The form stands for itself. -/
def Form.IsPlain (form : Form) : Prop :=
  ∀ forms, ¬form.StandsFor forms

/-- Giving way among the later forms does not touch the first one. -/
theorem OpensAtTop.cons {forms forms' : List TopLevel} (top : TopLevel)
    (h : OpensAtTop forms forms') : OpensAtTop (top :: forms) (top :: forms') := by
  obtain ⟨before, after, hforms⟩ := h
  exact .at_line (top :: before) after hforms

/-- A form at the top gives way to the forms that it stands for. -/
theorem opensAtTop_of_standsFor {top : TopLevel} {forms : List Form}
    (hform : top.form.StandsFor forms) (before after : List TopLevel) :
    OpensAtTop (before ++ top :: after) (before ++ forms.map (⟨top.line, ·⟩) ++ after) := by
  have hforms := Opens.here [] [] hform
  rw [List.nil_append, List.nil_append, List.append_nil] at hforms
  exact .at_line before after hforms

/-- Every form has tokens. -/
theorem tokens_length_pos (form : Form) : 0 < form.tokens.length := by
  cases form <;> simp [Form.tokens]

/-- Forms give way until all are plain. The induction is on the number of their tokens, which
becomes smaller when a form gives way. -/
theorem exists_plain (forms : List TopLevel) :
    ∃ plain, Relation.ReflTransGen OpensAtTop forms plain ∧ ∀ top ∈ plain, top.form.IsPlain := by
  induction hcount : Directive.tokenCount forms using Nat.strongRecOn generalizing forms with
  | ind count ih =>
  cases forms with
  | nil => exact ⟨[], .refl, fun _ hmem => absurd hmem List.not_mem_nil⟩
  | cons top rest =>
    by_cases hform : top.form.IsPlain
    · have hfewer : Directive.tokenCount rest < count := by
        have hpos := tokens_length_pos top.form
        rw [← hcount]
        simp only [Directive.tokenCount, List.flatMap_cons, List.length_append]
        omega
      obtain ⟨plain, hopens, hplain⟩ := ih _ hfewer rest rfl
      exact ⟨top :: plain, hopens.lift (top :: ·) fun _ _ h => h.cons top,
        List.forall_mem_cons.mpr ⟨hform, hplain⟩⟩
    · obtain ⟨forms, hform⟩ := not_forall_not.mp hform
      have hfewer := Directive.tokenCount_lt_of_opened (Form.standsFor_iff.mp hform) rest
      obtain ⟨plain, hopens, hplain⟩ := ih _ (hcount ▸ hfewer) _ rfl
      exact ⟨plain, .head (opensAtTop_of_standsFor hform [] rest) hopens, hplain⟩

/-- A plain form that is no include is turned into a record or refused. -/
theorem opened_of_isPlain {form : Form} (hplain : form.IsPlain)
    (hinclude : form.head? ≠ some "include") :
    Directive.opened form = .inr (match Record.ofForm form with
      | .ok record => .define record
      | .error cause => .fault cause) := by
  cases form with
  | atom text => rfl
  | str text => rfl
  | list items =>
    cases items with
    | nil => exact absurd .empty (hplain [])
    | cons head rest =>
      cases hhead : Directive.isCondition head with
      | true =>
        refine absurd (Form.standsFor_iff.mpr ?_) (hplain (Directive.guarded rest))
        rw [Directive.opened, if_pos hhead]
      | false =>
        rw [Directive.opened, if_neg (by simp [hhead])]
        exact congrArg Sum.inr (if_neg hinclude)

/-- Plain forms that include nothing expand to their records, one of each, up to the first that is
refused. -/
theorem expandDirectives_of_plain (tree : Tree) (active : List Key) (path : Path) (cache : Cache)
    {plain : List TopLevel} (hplain : ∀ top ∈ plain, top.form.IsPlain)
    (hinclude : ∀ top ∈ plain, top.form.head? ≠ some "include") :
    expandDirectives tree active path cache (Directive.ofTopLevels plain) =
      ⟨plain.mapM (Record.ofTopLevel path), cache, []⟩ := by
  induction plain with
  | nil =>
    rw [Directive.ofTopLevels, List.flatMap_nil, expandDirectives]
    rfl
  | cons top plain ih =>
    obtain ⟨htop, hplain⟩ := List.forall_mem_cons.mp hplain
    obtain ⟨htopInclude, hinclude⟩ := List.forall_mem_cons.mp hinclude
    rw [Directive.ofTopLevels_cons_of_opened (opened_of_isPlain htop htopInclude), List.mapM_cons,
      Record.ofTopLevel]
    cases Record.ofForm top.form with
    | error cause =>
      rw [expandDirectives]
      rfl
    | ok record =>
      rw [expandDirectives, ih hplain hinclude]
      cases plain.mapM (Record.ofTopLevel path) with
      | error e => rfl
      | ok records => rfl

/-- Conditions that differ only in their polarity stand for the same forms. -/
theorem eqvGen_of_polarity {head head' : Form} (hhead : head.AnnouncesCondition)
    (hhead' : head'.AnnouncesCondition) (before after : List TopLevel) (line : Nat)
    (arguments : List Form) :
    Relation.EqvGen OpensAtTop (before ++ ⟨line, .list (head :: arguments)⟩ :: after)
      (before ++ ⟨line, .list (head' :: arguments)⟩ :: after) := by
  have hopens {head : Form} (hhead : head.AnnouncesCondition) :
      OpensAtTop (before ++ ⟨line, .list (head :: arguments)⟩ :: after)
        (before ++ (Directive.guarded arguments).map (⟨line, ·⟩) ++ after) := by
    refine opensAtTop_of_standsFor (Form.standsFor_iff.mpr ?_) before after
    rw [Directive.opened, if_pos (Form.announcesCondition_iff.mp hhead)]
  exact .trans _ _ _ (.rel _ _ (hopens hhead)) (.symm _ _ (.rel _ _ (hopens hhead')))

/-- Forms expand to the same records, cache and error, whatever the files that are being expanded,
if one list of them comes from the other by opening and closing conditions at any depth. So neither
the polarity of conditions matters nor how they are nested. Opening comes to an end with plain forms,
and if these include no other file, each of them gives its record, in their order, up to the first
that is refused. -/
theorem conditions_transparent (tree : Tree) (active : List Key) (path : Path) (cache : Cache) :
    let expanded forms := expandDirectives tree active path cache (Directive.ofTopLevels forms)
    (∀ forms forms', Relation.EqvGen OpensAtTop forms forms' → expanded forms = expanded forms') ∧
    (∀ before after line head head' arguments, head.AnnouncesCondition →
      head'.AnnouncesCondition →
      expanded (before ++ ⟨line, .list (head :: arguments)⟩ :: after) =
        expanded (before ++ ⟨line, .list (head' :: arguments)⟩ :: after)) ∧
    (∀ forms, ∃ plain, Relation.ReflTransGen OpensAtTop forms plain ∧
      ∀ top ∈ plain, top.form.IsPlain) ∧
    ∀ forms plain, Relation.EqvGen OpensAtTop forms plain → (∀ top ∈ plain, top.form.IsPlain) →
      (∀ top ∈ plain, top.form.head? ≠ some "include") →
      expanded forms = ⟨plain.mapM (Record.ofTopLevel path), cache, []⟩ := by
  intro expanded
  have hsame : ∀ forms forms', Relation.EqvGen OpensAtTop forms forms' →
      expanded forms = expanded forms' :=
    fun _ _ h => congrArg (expandDirectives tree active path cache) (ofTopLevels_eq_of_eqvGen h)
  refine ⟨hsame, fun before after line head head' arguments hhead hhead' => ?_, exists_plain,
    fun forms plain hopens hplain hinclude => ?_⟩
  · exact hsame _ _ (eqvGen_of_polarity hhead hhead' before after line arguments)
  · rw [hsame forms plain hopens]
    exact expandDirectives_of_plain tree active path cache hplain hinclude

/-- A condition without a name lies in one with a name. -/
theorem conditions_transparent_of_nested :
    let f : Form := .list [.atom "define-function", .str "f"]
    let g : Form := .list [.atom "define-object", .atom "G", .list [.atom "parent", .str "P"]]
    let inner : Form := .list [.atom "ifndef", f]
    let nested : List TopLevel := [⟨2, .list [.atom "ifdef", .str "NEW", inner, g]⟩]
    let turned : List TopLevel := [⟨2, .list [.str "ifndef", .str "NEW", inner, g]⟩]
    let plain : List TopLevel := [⟨2, f⟩, ⟨2, g⟩]
    let records : List Record :=
      [⟨.function, "f", .empty⟩, ⟨.object, "G", ⟨[("parent", [.str "P"])]⟩⟩]
    let expanded forms :=
      expandDirectives ⟨[], []⟩ [] ⟨"a.defs"⟩ .empty (Directive.ofTopLevels forms)
    Relation.EqvGen OpensAtTop nested plain ∧ (∀ top ∈ plain, top.form.IsPlain) ∧
      (∀ top ∈ plain, top.form.head? ≠ some "include") ∧
      expanded nested = ⟨.ok records, .empty, []⟩ ∧ expanded turned = expanded nested ∧
      expanded plain = expanded nested := by
  intro f g inner nested turned plain records expanded
  have hifdef : (Form.atom "ifdef").AnnouncesCondition := .inl rfl
  have hifndef : (Form.atom "ifndef").AnnouncesCondition := .inr rfl
  have hinside : Opens [.list [.atom "ifdef", .str "NEW", inner, g]]
      [.list [.atom "ifdef", .str "NEW", f, g]] :=
    .inside [] [] hifdef (.here [] [g] (.unnamed _ [] hifndef))
  have houtside : (Form.list [.atom "ifdef", .str "NEW", f, g]).StandsFor [f, g] :=
    .named [f, g] hifdef rfl
  have hopened : OpensAtTop nested [⟨2, .list [.atom "ifdef", .str "NEW", f, g]⟩] :=
    @OpensAtTop.at_line [] [] ⟨2, _⟩ _ hinside
  have hall : OpensAtTop [⟨2, .list [.atom "ifdef", .str "NEW", f, g]⟩] plain :=
    @opensAtTop_of_standsFor ⟨2, _⟩ _ houtside [] []
  have hopens : Relation.EqvGen OpensAtTop nested plain :=
    .trans _ _ _ (.rel _ _ hopened) (.rel _ _ hall)
  have hplain : ∀ top ∈ plain, top.form.IsPlain := by
    intro top hmem forms hform
    have hnone := Form.standsFor_iff.mp hform
    rcases List.mem_cons.mp hmem with rfl | hmem
    · exact nomatch hnone
    · obtain rfl := List.mem_singleton.mp hmem
      exact nomatch hnone
  have hinclude : ∀ top ∈ plain, top.form.head? ≠ some "include" := by decide
  obtain ⟨hsame, hpolarity, -, hrecords⟩ :=
    conditions_transparent ⟨[], []⟩ [] ⟨"a.defs"⟩ .empty
  exact ⟨hopens, hplain, hinclude, hrecords nested plain hopens hplain hinclude,
    hpolarity [] [] 2 (.str "ifndef") (.atom "ifdef") [.str "NEW", inner, g] (.inr rfl) hifdef,
    (hsame nested plain hopens).symm⟩

end Stubgen.Defs
