import Stubgen.Proofs.Namespace.BuildSteps
import Stubgen.Stub.Rendering

/-!
# Aligned signatures

A callable has its parameters in two lists: with the tags of their types for its documentation, and
as they are written in its first line. A record fills both lists, the properties of a constructor
replace both, and so does a wrapper. In every namespace that is built in steps, the two lists are
therefore two views of one list of parameters, and so are the first line and the documentation of
everything that a stub shows.
-/

namespace Stubgen

/-- A parameter is written as its name, alone or with a default. -/
def TypedName.IsWrittenAs (type : TypedName) (written : String) : Prop :=
  written = type.name ∨ ∃ value, written = type.name ++ "=" ++ value

/-- A parameter is written under the name that its type goes with. -/
theorem Parameter.isWrittenAs_render (parameter : Parameter) :
    parameter.typed.IsWrittenAs parameter.render := by
  unfold Parameter.render
  split
  · exact .inl rfl
  · next value _ => exact .inr ⟨value, rfl⟩

namespace Callable

/-- The two lists of the parameters of a callable are views of the given parameters. -/
structure Views (callable : Callable) (parameters : List Parameter) : Prop where
  types_eq : callable.types = parameters.map Parameter.typed
  explicit_eq : callable.explicit = parameters.map Parameter.render

/-- The two lists of the parameters of a callable are views of the same parameters. -/
def Aligned (callable : Callable) : Prop :=
  ∃ parameters, callable.Views parameters

/-- The explicit parameters of a callable are as many as its types, each written under the name
that the type in the same position goes with. -/
structure SpellsTypes (callable : Callable) : Prop where
  length_eq : callable.explicit.length = callable.types.length
  written : ∀ (i : Nat) (type : TypedName) (written : String), callable.types[i]? = some type →
    callable.explicit[i]? = some written → type.IsWrittenAs written

variable {callable : Callable}

/-- Aligned parameters are as many in one list as in the other, and in the same order. -/
theorem Aligned.spellsTypes (h : callable.Aligned) : callable.SpellsTypes := by
  obtain ⟨parameters, htypes, hexplicit⟩ := h
  refine ⟨by rw [htypes, hexplicit, List.length_map, List.length_map], ?_⟩
  intro i type written htype hwritten
  rw [htypes, List.getElem?_map, Option.map_eq_some_iff] at htype
  obtain ⟨parameter, hparameter, rfl⟩ := htype
  rw [hexplicit, List.getElem?_map, hparameter, Option.map_some] at hwritten
  obtain rfl := Option.some.inj hwritten
  exact parameter.isWrittenAs_render

/-- Parameters without defaults are aligned. -/
theorem aligned_withTypes (callable : Callable) (types : List TypedName) :
    (callable.withTypes types).Aligned := by
  refine ⟨types.map fun type => ⟨type.name, type.tag, none⟩, ?_, ?_⟩
  · have htyped : (Parameter.typed ∘ fun type : TypedName => ⟨type.name, type.tag, none⟩) = id :=
      rfl
    rw [List.map_map, htyped, List.map_id]
    rfl
  · rw [List.map_map]
    rfl

/-- Alignment depends on the two lists only. -/
theorem Aligned.of_lists_eq {other : Callable} (h : callable.Aligned)
    (htypes : other.types = callable.types) (hexplicit : other.explicit = callable.explicit) :
    other.Aligned := by
  obtain ⟨parameters, hviews⟩ := h
  exact ⟨parameters, htypes.trans hviews.types_eq, hexplicit.trans hviews.explicit_eq⟩

/-- The parameters of a record are aligned. -/
theorem aligned_callableOf (record : Defs.Record) (name : String) (isMethod : Bool)
    (returns : String) : (Definition.callableOf record name isMethod returns).Aligned :=
  ⟨Definition.parametersOf record, rfl, rfl⟩

/-- The parameters of a constructor are aligned, whether they are properties or not. -/
theorem aligned_constructorOf (record : Defs.Record) (nativeName : String) :
    (Definition.constructorOf record nativeName).Aligned := by
  unfold Definition.constructorOf
  split
  · exact aligned_withTypes _ _
  · exact aligned_callableOf record constructorName true nativeName

/-- Alignment lasts however a namespace is built. -/
theorem isLasting_aligned : IsLasting Aligned where
  defined style record definition contender hrecord hcontender := by
    cases Definition.toldBy_of_ofRecord hrecord with
    | aClass nativeName => exact nomatch hcontender
    | aConstructor nativeName native? =>
      obtain rfl := Option.some.inj hcontender
      exact aligned_constructorOf record nativeName
    | aMethod nativeName returns native? =>
      obtain rfl := Option.some.inj hcontender
      exact aligned_callableOf record record.name true returns
    | aFunction returns native? =>
      obtain rfl := Option.some.inj hcontender
      exact aligned_callableOf record record.name false returns
    | nothing => exact nomatch hcontender
  commented callable comments h := h.of_lists_eq rfl rfl
  refined override callable h := by
    unfold Override.refine
    split
    · next types returns _ _ => exact (aligned_withTypes callable types).of_lists_eq rfl rfl
    · exact h

end Callable

/-! ## The text of a callable -/

namespace Stub

/-- The line about a parameter: its name, what its type is, and its tag unless an exclamation mark
tells that the tag spells the type out. -/
def lineAbout (shown : String → String) (type : TypedName) : String :=
  "     " ++ type.name ++ " -- " ++ Tag.describe shown type.tag ++
    if type.tag.toList.head? = some '!' then "" else " (C type: " ++ type.tag ++ ")"

/-- The lines of a documentation block: a heading and one line about each parameter, in their order,
if there are parameters, and then the comments. -/
structure IsDocumentation (shown : String → String) (callable : Callable) (lines : List String) :
    Prop where
  heading : callable.types ≠ [] → lines[0]? = some "Parameter types:"
  about : ∀ (i : Nat) (type : TypedName), callable.types[i]? = some type →
    lines[i + 1]? = some (lineAbout shown type)
  comments : lines.drop (if callable.types = [] then 0 else callable.types.length + 1) =
    callable.comments

/-- The parameters in the first line of a callable are written under the names of their types, after
the receiver of a method, and the block below it is about them, in the same order. -/
structure DocumentsParameters (shown : String → String) (callable : Callable) : Prop where
  spells : callable.SpellsTypes
  text : ∃ lines, IsDocumentation shown callable lines ∧
    let outer := if callable.isMethod then "  " else ""
    let pad := outer ++ "  "
    let receivers := if callable.isMethod then ["self"] else []
    renderCallable shown callable =
      outer ++ "def " ++ callable.name ++ "(" ++
        ", ".intercalate (receivers ++ callable.explicit) ++ "):\n" ++
        (if lines = [] then "" else
          pad ++ "\"\"\"" ++ ("\n" ++ pad).intercalate lines ++ "\"\"\"" ++ "\n") ++
        pad ++ body shown callable

/-- The documentation of a callable is about its types. -/
theorem isDocumentation_docLines (shown : String → String) (callable : Callable) :
    IsDocumentation shown callable (docLines shown callable) := by
  have hline : parameterLine shown = lineAbout shown := by
    funext type
    simp only [parameterLine, lineAbout, Tag.isExplicit, decide_eq_true_eq]
  unfold docLines
  rw [hline]
  cases htypes : callable.types with
  | nil =>
    refine ⟨fun hsome => absurd htypes hsome, fun i type htype => ?_, by rw [htypes]; rfl⟩
    rw [htypes] at htype
    exact nomatch htype
  | cons first rest =>
    refine ⟨fun _ => rfl, fun i type htype => ?_, ?_⟩
    · rw [htypes] at htype
      have hmap : ((first :: rest).map (lineAbout shown))[i]? = some (lineAbout shown type) := by
        rw [List.getElem?_map, htype, Option.map_some]
      have hlt := Nat.succ_lt_succ (List.getElem?_eq_some_iff.mp hmap).1
      exact (List.getElem?_append_left hlt).trans hmap
    · rw [if_neg (htypes ▸ List.cons_ne_nil first rest), htypes]
      exact List.drop_left' (by simp)

/-- A callable that spells its types documents its parameters. -/
theorem documentsParameters_of_spellsTypes {callable : Callable} (h : callable.SpellsTypes)
    (shown : String → String) : DocumentsParameters shown callable where
  spells := h
  text := by
    refine ⟨docLines shown callable, isDocumentation_docLines shown callable, ?_⟩
    unfold renderCallable
    simp only [Callable.indent, Callable.parameters, List.isEmpty_iff]
    cases callable.isMethod <;> rfl

end Stub

/-! ## Whatever a namespace is built of -/

namespace Namespace

variable {steps : List BuildStep}

/-- Every function and every method that is built in steps is aligned. -/
theorem aligned_of_at? {target : NativeTarget} {callable : Callable}
    (hthere : (ofSteps steps).at? target = some callable) : callable.Aligned :=
  holds_of_at?_ofSteps Callable.isLasting_aligned steps hthere

/-- A method that a class shows is found in the namespace, or is the constructor that the class gets
because it has none. -/
theorem at?_or_of_mem_shownMethods {ns : Namespace} {c : Class} (hclass : c ∈ ns.classes.values)
    {method : Callable} (hmethod : method ∈ (Stub.shownMethods c).values) :
    (∃ target, ns.at? target = some method) ∨ method = Stub.defaultConstructor c.nativeName := by
  obtain ⟨nativeName, hclass⟩ := Table.mem_values_iff.mp hclass
  obtain ⟨name, hmethod⟩ := Table.mem_values_iff.mp hmethod
  have hown (h : c.methods.get? name = some method) : ∃ target, ns.at? target = some method :=
    ⟨.methodOf nativeName name, method?_eq_some_iff.mpr ⟨c, hclass, h⟩⟩
  unfold Stub.shownMethods at hmethod
  split at hmethod
  · exact .inl (hown hmethod)
  · rw [Table.get?_insert] at hmethod
    split at hmethod
    · exact .inr (Option.some.inj hmethod).symm
    · exact .inl (hown hmethod)

/-- Every method that a class shows is aligned, also the constructor that none of its records
defines. -/
theorem aligned_of_mem_shownMethods {c : Class} (hclass : c ∈ (ofSteps steps).classes.values)
    {method : Callable} (hmethod : method ∈ (Stub.shownMethods c).values) : method.Aligned := by
  rcases at?_or_of_mem_shownMethods hclass hmethod with ⟨target, hplace⟩ | rfl
  · exact aligned_of_at? hplace
  · exact ⟨[], rfl, rfl⟩

/-- However a namespace is built: a function is not indented and has no receiver, a method is
indented once and has the receiver in front, their explicit parameters are written under the names
of their types, and everything that a stub shows documents the parameters of its first line. -/
theorem signatures_aligned (steps : List BuildStep) :
    let ns := ofSteps steps
    (∀ name function, ns.functions.get? name = some function →
      function.indent = 0 ∧ function.parameters = function.explicit ∧ function.SpellsTypes) ∧
    (∀ nativeName name method, ns.method? nativeName name = some method →
      method.indent = 1 ∧ method.parameters = "self" :: method.explicit ∧ method.SpellsTypes) ∧
    (∀ function ∈ ns.functions.values, Stub.DocumentsParameters ns.shownName function) ∧
    ∀ c ∈ ns.classes.values, ∀ method ∈ (Stub.shownMethods c).values,
      Stub.DocumentsParameters ns.shownName method := by
  intro ns
  have hintegrity : ns.Integrity := integrity_ofSteps steps
  refine ⟨fun name function hthere => ?_, fun nativeName name method hthere => ?_,
    fun function hmem => ?_, fun c hclass method hmethod => ?_⟩
  · have hplace : ns.at? (.functionNamed name) = some function := hthere
    have hindent : function.indent = 0 := by
      simp [Callable.indent, (hintegrity.function_named name function hthere).2]
    exact ⟨hindent, hintegrity.parameters_eq hplace, (aligned_of_at? hplace).spellsTypes⟩
  · have hplace : ns.at? (.methodOf nativeName name) = some method := hthere
    have hindent : method.indent = 1 := by
      simp [Callable.indent, (hintegrity.method_named nativeName name method hthere).2]
    exact ⟨hindent, hintegrity.parameters_eq hplace, (aligned_of_at? hplace).spellsTypes⟩
  · obtain ⟨name, hthere⟩ := Table.mem_values_iff.mp hmem
    have hplace : ns.at? (.functionNamed name) = some function := hthere
    exact Stub.documentsParameters_of_spellsTypes (aligned_of_at? hplace).spellsTypes ns.shownName
  · exact Stub.documentsParameters_of_spellsTypes
      (aligned_of_mem_shownMethods hclass hmethod).spellsTypes ns.shownName

/-- A record that does not tell its class is left out. A function keeps a default that its record
tells, and a method gets the parameters of its wrapper behind the receiver. -/
theorem signatures_aligned_of_default_and_wrapper :
    let incomplete : Defs.Record := ⟨.method, "lost", ⟨[("c-name", [.str "lost"])]⟩⟩
    let function : Defs.Record := ⟨.function, "f", ⟨[("c-name", [.str "f"]), ("parameters",
      [.list [.str "gint", .str "a"],
        .list [.str "GtkWidget*", .str "w", .list [.atom "default", .str "NULL"]]])]⟩⟩
    let method : Defs.Record := ⟨.method, "frob", ⟨[("of-object", [.str "GtkA"]),
      ("c-name", [.str "gtk_a_frob"]), ("parameters", [.list [.str "gint", .str "old"]])]⟩⟩
    let wrapper : Override := ⟨.positional, "_wrap_gtk_a_frob(self) \x7b if (!" ++
      "PyArg_ParseTuple(args, \"s:frob\", &text)) return NULL; return Py_None; \x7d"⟩
    let set : OverrideSet := ⟨⟨[("gtk_a_frob", wrapper)]⟩, .empty, .empty, []⟩
    let steps : List BuildStep :=
      [.define .gnome incomplete, .define .gnome function, .define .gnome method,
        .applyOverrides set]
    let ns := ofSteps steps
    let text := "def f(a, w=None):\n  \"\"\"Parameter types:\n" ++
      "       a -- integer (C type: gint)\n" ++
      "       w -- instance of GtkWidget (C type: GtkWidget*)\n  C impl: f()\"\"\"\n  pass"
    (∃ f ∈ ns.functions.values, f.parameters = ["a", "w=None"] ∧
        Stub.DocumentsParameters ns.shownName f ∧ Stub.renderCallable ns.shownName f = text) ∧
      ∃ m, ns.method? "GtkA" "frob" = some m ∧ m.indent = 1 ∧ m.types = [⟨"text", "!string"⟩] ∧
        m.parameters = "self" :: m.explicit ∧ m.parameters = ["self", "text"] ∧ m.SpellsTypes := by
  intro incomplete function method wrapper set steps ns text
  obtain ⟨-, hmethods, hdocumented, -⟩ := signatures_aligned steps
  constructor
  · have hshown : ns.functions.values.map (fun f =>
        (f.parameters, Stub.renderCallable ns.shownName f)) = [(["a", "w=None"], text)] := by
      decide +kernel
    obtain ⟨f, hf, hshown⟩ := List.mem_map.mp (hshown ▸ List.mem_singleton_self _)
    obtain ⟨hparameters, htext⟩ := Prod.mk.inj hshown
    exact ⟨f, hf, hparameters, hdocumented f hf, htext⟩
  · have hshown : (ns.method? "GtkA" "frob").map (fun m => (m.types, m.parameters)) =
        some ([⟨"text", "!string"⟩], ["self", "text"]) := by
      decide +kernel
    obtain ⟨m, hm, hshown⟩ := Option.map_eq_some_iff.mp hshown
    obtain ⟨htypes, hparameters⟩ := Prod.mk.inj hshown
    obtain ⟨hindent, hreceiver, hspells⟩ := hmethods "GtkA" "frob" m hm
    exact ⟨m, hm, hindent, htypes, hreceiver, hparameters, hspells⟩

end Namespace

end Stubgen
