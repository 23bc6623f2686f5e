import Stubgen.Proofs.Stub.Constructors
import Stubgen.Proofs.Text.Occurrence
import Stubgen.Proofs.Text.Trimming

/-!
# References to classes

A tag refers to a class by its native name, with pointer marks behind it and a qualifier before it if
need be. This file proves that such a tag is shown with the name that stands in the first line of the
class and in the bases of its subclasses, unless the tag makes sense by itself. A native name that
begins or ends like a tag around a name is left out of account, for a tag does not tell which of the
two it spells.
-/

namespace Stubgen

namespace Tag

/-- The tags that make sense by themselves, whatever classes there are. Among them is the empty tag,
which says as little as the tag of an unknown type. -/
def fixed : List String :=
  [nothing, unspecified, "", "gunichar", "gboolean", "gpointer", "Function"] ++ integers

/-- A name behind the qualifier of a tag, if there is one. -/
def qualify (qualified : Bool) (name : List Char) : List Char :=
  (if qualified then "const-".toList else []) ++ name

/-- A native name as tags spell it. -/
def spelled (qualified : Bool) (nativeName : String) (pointers : Nat) : String :=
  String.ofList (qualify qualified nativeName.toList ++ List.replicate pointers '*')

/-- The characters of a tag that spells a name. -/
@[simp]
theorem toList_spelled (qualified : Bool) (nativeName : String) (pointers : Nat) :
    (spelled qualified nativeName pointers).toList =
      qualify qualified nativeName.toList ++ List.replicate pointers '*' :=
  String.toList_ofList

/-- Nothing at the ends of the name is taken for a part of a tag around it. -/
structure IsBareName (nativeName : String) : Prop where
  not_blank : Text.trimmed nativeName = nativeName
  not_explicit : nativeName.toList.head? ≠ some '!'
  not_qualified : ¬"const-".toList <+: nativeName.toList
  not_pointer : nativeName.toList.getLast? ≠ some '*'

/-- Whether the description of a tag with this sense is the same whatever classes there are. -/
def Sense.isFixed : Sense → Bool
  | explicit _ | instanceOf _ => false
  | _ => true

variable {tag nativeName : String}

/-! ## The sense of a tag -/

/-- A tag that does not make sense by itself refers to a class. -/
theorem senseOf_eq_instanceOf (hexplicit : tag.toList.head? ≠ some '!') (hfixed : tag ∉ fixed)
    (htext : ¬"char*".toList <:+: tag.toList) :
    senseOf tag = .instanceOf (String.ofList (className tag.toList)) := by
  have hother : ∀ word ∈ fixed, tag ≠ word := fun word hword heq => hfixed (heq ▸ hword)
  have hintegers : tag ∉ integers := fun hmem => hfixed (List.mem_append_right _ hmem)
  unfold senseOf
  rw [if_neg (Text.occursIn_iff.not.mpr htext), if_neg (hother _ (by decide)), if_neg hintegers,
    if_neg (hother _ (by decide)), if_neg (hother _ (by decide)), if_neg (hother _ (by decide)),
    if_neg (hother _ (by decide))]
  split
  · next hempty => exact absurd (String.toList_eq_nil_iff.mp hempty) (hother "" (by decide))
  · next hwords => exact absurd (congrArg List.head? hwords) hexplicit
  · rw [if_neg (hother _ (by decide))]

/-- A tag that speaks of a text is described without regard to classes, and so are the fixed tags. -/
theorem isFixed_senseOf (h : tag ∈ fixed ∨ "char*".toList <:+: tag.toList) :
    (senseOf tag).isFixed = true := by
  rcases h with hfixed | htext
  · have hall : ∀ tag ∈ fixed, (senseOf tag).isFixed = true := by decide
    exact hall tag hfixed
  · rw [senseOf, if_pos (Text.occursIn_iff.mpr htext)]
    rfl

/-- What is described without regard to classes is not described as an instance of one. -/
theorem not_instance_of_isFixed (h : (sense tag).isFixed = true) (shown : String → String) :
    ¬"instance of ".toList <+: (describe shown tag).toList := by
  unfold describe
  generalize sense tag = sense at h
  cases sense with
  | explicit words => exact absurd h Bool.false_ne_true
  | instanceOf nativeName => exact absurd h Bool.false_ne_true
  | _ =>
    simp only
    decide

/-! ## Spelled names -/

/-- What holds of the first character of a name and of what is put before it holds of the first
character of a tag that spells the name. -/
theorem forall_head?_spelled {p : Char → Prop} {name : List Char}
    (hname : ∀ c ∈ name.head?, p c) (hqualifier : p 'c') (hpointer : p '*') (qualified : Bool)
    (pointers : Nat) :
    ∀ c ∈ (qualify qualified name ++ List.replicate pointers '*').head?, p c := by
  cases qualified with
  | true =>
    rintro c ⟨⟩
    exact hqualifier
  | false =>
    cases name with
    | nil =>
      intro c hc
      obtain ⟨-, rfl⟩ := List.mem_replicate.mp (List.mem_of_mem_head? hc)
      exact hpointer
    | cons first name => exact hname

/-- What holds of the last characters of a name and of a qualifier holds of that of the qualified
name. -/
theorem forall_getLast?_qualify {p : Char → Prop} {name : List Char}
    (hname : ∀ c ∈ name.getLast?, p c) (hqualifier : p '-') (qualified : Bool) :
    ∀ c ∈ (qualify qualified name).getLast?, p c := by
  cases name with
  | nil =>
    cases qualified with
    | true =>
      rintro c ⟨⟩
      exact hqualifier
    | false => exact hname
  | cons first name => rwa [qualify, List.getLast?_append_cons]

/-- No blanks are around a tag that spells a bare name. -/
theorem trimmed_spelled (h : IsBareName nativeName) (qualified : Bool) (pointers : Nat) :
    Text.trimmed (spelled qualified nativeName pointers) =
      spelled qualified nativeName pointers := by
  have hname := congrArg String.toList h.not_blank
  rw [Text.trimmed, String.toList_ofList] at hname
  obtain ⟨hfirst, hlast⟩ := Text.trim_eq_self_iff.mp hname
  have hspelled : Text.trim (spelled qualified nativeName pointers).toList =
      (spelled qualified nativeName pointers).toList := by
    rw [toList_spelled]
    refine Text.trim_eq_self_iff.mpr
      ⟨forall_head?_spelled hfirst (by decide) (by decide) qualified pointers, ?_⟩
    cases pointers with
    | zero =>
      rw [List.replicate_zero, List.append_nil]
      exact forall_getLast?_qualify hlast (by decide) qualified
    | succ pointers =>
      rw [List.replicate_succ', ← List.append_assoc, List.getLast?_concat]
      rintro c ⟨⟩
      decide
  rw [Text.trimmed, hspelled, String.ofList_toList]

/-- The class name in a tag that spells a bare name is this name. -/
theorem className_spelled (h : IsBareName nativeName) (qualified : Bool) (pointers : Nat) :
    className (spelled qualified nativeName pointers).toList = nativeName.toList := by
  have hlast : ∀ c ∈ (qualify qualified nativeName.toList).reverse.head?,
      decide (c = '*') = false := by
    rw [List.head?_reverse]
    refine forall_getLast?_qualify (fun c hc => ?_) (by decide) qualified
    exact decide_eq_false fun heq => h.not_pointer (heq ▸ hc)
  rw [className, toList_spelled, List.reverse_append, List.reverse_replicate,
    Text.dropWhile_append_exact (by simp) hlast, List.reverse_reverse, Text.dropStart,
    Text.dropStart?]
  cases qualified with
  | true => rw [qualify, if_pos rfl, if_pos (by simp), List.drop_left, Option.getD_some]
  | false =>
    have hprefix := List.isPrefixOf_iff_prefix.not.mpr h.not_qualified
    rw [qualify, if_neg Bool.false_ne_true, List.nil_append, if_neg hprefix, Option.getD_none]

/-- A tag that spells a bare name refers to the class of this name if it does not make sense by
itself. -/
theorem sense_spelled (h : IsBareName nativeName) (qualified : Bool) (pointers : Nat)
    (hfixed : spelled qualified nativeName pointers ∉ fixed)
    (htext : ¬"char*".toList <:+: (spelled qualified nativeName pointers).toList) :
    sense (spelled qualified nativeName pointers) = .instanceOf nativeName := by
  have hexplicit : (spelled qualified nativeName pointers).toList.head? ≠ some '!' := by
    have hname : ∀ c ∈ nativeName.toList.head?, c ≠ '!' :=
      fun c hc heq => h.not_explicit (heq ▸ hc)
    rw [toList_spelled]
    exact fun hfirst =>
      forall_head?_spelled hname (by decide) (by decide) qualified pointers '!' hfirst rfl
  rw [sense, trimmed_spelled h, senseOf_eq_instanceOf hexplicit hfixed htext, className_spelled h,
    String.ofList_toList]

/-- A tag that spells a bare name is described as an instance of the class exactly if it does not
make sense by itself. Its value is an instance of the class as well. -/
theorem spelled_refers_iff (h : IsBareName nativeName) (shown : String → String)
    (qualified : Bool) (pointers : Nat) :
    let tag := spelled qualified nativeName pointers
    tag ∉ fixed ∧ ¬"char*".toList <:+: tag.toList ↔
      placeholder shown tag = .value (shown nativeName ++ "()") ∧
        describe shown tag = "instance of " ++ shown nativeName := by
  intro tag
  constructor
  · rintro ⟨hfixed, htext⟩
    have hsense : sense tag = .instanceOf nativeName :=
      sense_spelled h qualified pointers hfixed htext
    exact ⟨by rw [placeholder, hsense], by rw [describe, hsense]⟩
  · rintro ⟨-, hinstance⟩
    rw [← not_or]
    intro hitself
    have hsense : (sense tag).isFixed = true := by
      rw [sense, trimmed_spelled h]
      exact isFixed_senseOf hitself
    have hprefix : "instance of ".toList <+: (describe shown tag).toList := by
      rw [hinstance, String.toList_append]
      exact List.prefix_append "instance of ".toList (shown nativeName).toList
    exact absurd hprefix (not_instance_of_isFixed hsense shown)

end Tag

namespace Stub

variable {ns : Namespace} {c c' : Class} {nativeName : String} {before after : List String}

/-! ## The name of a class in the first lines -/

/-- The text of a class begins with its first line. -/
theorem exists_renderClass_eq (ns : Namespace) (c : Class) :
    ∃ rest, renderClass ns c =
      "class " ++ c.name ++ baseList (bases ns c) ++ ":" ++ rest := by
  rw [renderClass, classHeader_eq]
  exact ⟨_, String.append_assoc⟩

/-- A class stands among the bases of a class that has it as a parent, where it stands among the
parents. -/
theorem bases_of_parents (hclass : ns.class? nativeName = some c)
    (hparents : c'.definition.parents = before ++ nativeName :: after) :
    bases ns c' = before.filterMap ns.displayName? ++ c.name :: after.filterMap ns.displayName? := by
  have hname : ns.displayName? nativeName = some c.name := by
    rw [Namespace.displayName?, hclass, Option.map_some]
  rw [bases, hparents, List.filterMap_append, List.filterMap_cons_some hname]

/-- There is a list of bases if there is a base. -/
theorem baseList_append_cons (front : List String) (name : String) (back : List String) :
    baseList (front ++ name :: back) = "(" ++ ", ".intercalate (front ++ name :: back) ++ ")" := by
  cases front <;> rfl

/-- In a namespace that operations have built, a tag that spells the native name of a class shows it,
as a value and in words, with the name that stands in the first line of the class and in the list of
bases of every class that has it as a parent. It does so exactly if it is none of the tags that make
sense by themselves and does not speak of a text. -/
theorem references_agree (operations : List Namespace.Operation) (c : Class)
    (hclass : c ∈ (Namespace.ofOperations operations).classes.values)
    (hname : Tag.IsBareName c.nativeName) :
    let ns := Namespace.ofOperations operations
    (∀ qualified pointers,
      let tag := Tag.spelled qualified c.nativeName pointers
      tag ∉ Tag.fixed ∧ ¬"char*".toList <:+: tag.toList ↔
        Tag.placeholder ns.shownName tag = .value (c.name ++ "()") ∧
          Tag.describe ns.shownName tag = "instance of " ++ c.name) ∧
    (∃ rest, renderClass ns c = "class " ++ c.name ++ baseList (bases ns c) ++ ":" ++ rest) ∧
    ∀ c' before after, c'.definition.parents = before ++ c.nativeName :: after →
      ∃ rest, renderClass ns c' = "class " ++ c'.name ++ "(" ++
        ", ".intercalate (before.filterMap ns.displayName? ++
          c.name :: after.filterMap ns.displayName?) ++ "):" ++ rest := by
  intro ns
  obtain ⟨key, hkey⟩ := Table.mem_values_iff.mp hclass
  have hstored : ns.class? c.nativeName = some c := by
    rwa [(Namespace.integrity_ofOperations operations).class_named key c hkey]
  have hshown : ns.shownName c.nativeName = c.name := by
    rw [Namespace.shownName, Namespace.displayName?, hstored, Option.map_some, Option.getD_some]
  refine ⟨fun qualified pointers => ?_, exists_renderClass_eq ns c, ?_⟩
  · rw [← hshown]
    exact Tag.spelled_refers_iff hname ns.shownName qualified pointers
  · intro c' before after hparents
    obtain ⟨rest, hrest⟩ := exists_renderClass_eq ns c'
    have hclosing : "):" = ")" ++ ":" := rfl
    rw [bases_of_parents hstored hparents, baseList_append_cons] at hrest
    exact ⟨rest, by simpa only [hclosing, String.append_assoc] using hrest⟩

/-- A class with a subclass. The subclass has one parent before it and another one behind it, which
is not in the namespace. -/
theorem references_agree_of_widget :
    let operations : List Namespace.Operation :=
      [.confirmClass "GtkBin"
          ⟨"Bin", some "Gtk", ["GtkBuildable", "GtkWidget", "GObject"], [], []⟩,
        .confirmClass "GtkWidget" ⟨"Widget", some "Gtk", [], [], []⟩,
        .ensureClass "GtkBuildable"]
    let ns := Namespace.ofOperations operations
    ∃ c ∈ ns.classes.values, c.nativeName = "GtkWidget" ∧ Tag.IsBareName c.nativeName ∧
      Tag.placeholder ns.shownName "const-GtkWidget*" = .value "Widget()" ∧
      Tag.describe ns.shownName "const-GtkWidget*" = "instance of Widget" ∧
      (∃ rest, renderClass ns c = "class Widget:" ++ rest) ∧
      ∃ c', ns.class? "GtkBin" = some c' ∧
        ∃ rest, renderClass ns c' = "class Bin(Buildable, Widget):" ++ rest := by
  intro operations ns
  have hwidget : (ns.class? "GtkWidget").map (fun c => (c.nativeName, c.name, bases ns c)) =
      some ("GtkWidget", "Widget", []) := by decide +kernel
  have hbin : (ns.class? "GtkBin").map (fun c => (c.name, c.definition.parents)) =
      some ("Bin", ["GtkBuildable"] ++ "GtkWidget" :: ["GObject"]) := by decide +kernel
  have hbefore : ["GtkBuildable"].filterMap ns.displayName? = ["Buildable"] := by decide +kernel
  have hafter : ["GObject"].filterMap ns.displayName? = [] := by decide +kernel
  obtain ⟨c, hclass, hc⟩ := Option.map_eq_some_iff.mp hwidget
  obtain ⟨c', hclass', hc'⟩ := Option.map_eq_some_iff.mp hbin
  obtain ⟨hnative, hname, hbases⟩ : c.nativeName = "GtkWidget" ∧ c.name = "Widget" ∧
    bases ns c = [] := by simpa using hc
  obtain ⟨hname', hparents⟩ := Prod.mk.inj hc'
  have hmem : c ∈ ns.classes.values := Table.mem_values_iff.mpr ⟨"GtkWidget", hclass⟩
  have hbare : Tag.IsBareName c.nativeName := by
    rw [hnative]
    exact ⟨by decide +kernel, by decide, by decide, by decide⟩
  obtain ⟨hspelled, hfirst, hsubclass⟩ := references_agree operations c hmem hbare
  have htag : Tag.spelled true c.nativeName 1 = "const-GtkWidget*" := by
    rw [hnative]
    decide
  have hreference : "const-GtkWidget*" ∉ Tag.fixed ∧
      ¬"char*".toList <:+: "const-GtkWidget*".toList :=
    ⟨by decide, Text.occursIn_iff.not.mp (by decide)⟩
  obtain ⟨hvalue, hwords⟩ := (hspelled true 1).mp (by rwa [htag])
  rw [htag, hname] at hvalue hwords
  have hheader : "class " ++ "Widget" ++ baseList [] ++ ":" = "class Widget:" := by decide
  have hheader' : "class " ++ "Bin" ++ "(" ++
      ", ".intercalate (["Buildable"] ++ "Widget" :: []) ++ "):" =
        "class Bin(Buildable, Widget):" := by decide
  rw [hname, hbases, hheader] at hfirst
  obtain ⟨rest, hrest⟩ := hsubclass c' ["GtkBuildable"] ["GObject"] (hnative ▸ hparents)
  rw [hbefore, hafter, hname', hname, hheader'] at hrest
  exact ⟨c, hmem, hnative, hbare, hvalue, hwords, hfirst, c', hclass', rest, hrest⟩

end Stub

end Stubgen
