import Stubgen.Proofs.Namespace.Alignment
import Stubgen.Proofs.Namespace.Tameness
import Stubgen.Proofs.Text.Joining

/-!
# Documentation blocks

A stub documents a class or a callable in a block between triple quotes, with a line for each entry.
The entries are written as they are. So a block is what it is meant to be only if no entry holds
triple quotes or a line feed, and if the last one does not end with a character that reaches into
the quotes behind it. Texts without double quotes, backslashes and line feeds are on the safe side.
-/

namespace Stubgen

namespace Stub

/-- Text that goes on up to the triple quotes behind it: it holds none itself, and its end leaves
them alone. -/
structure EndsAtQuotes (inside : List Char) : Prop where
  noQuotes : ¬docQuotes.toList <:+: inside
  noQuote : inside.getLast? ≠ some '"'
  noBackslash : inside.getLast? ≠ some '\\'

/-- The text is one block between triple quotes, with one line for each entry. -/
def IsDocBlock (pad : String) (entries : List String) (text : String) : Prop :=
  ∃ inside : List Char,
    text.toList = pad.toList ++ docQuotes.toList ++ inside ++ docQuotes.toList ∧
      EndsAtQuotes inside ∧ inside.count '\n' + 1 = entries.length

/-- Entries that may be written between triple quotes as they are. -/
structure FitBetweenQuotes (entries : List String) : Prop where
  noQuotes : ∀ entry ∈ entries, ¬docQuotes.toList <:+: entry.toList
  noLineFeed : ∀ entry ∈ entries, '\n' ∉ entry.toList
  last : ∀ entry ∈ entries.getLast?,
    entry.toList.getLast? ≠ some '"' ∧ entry.toList.getLast? ≠ some '\\'

/-- A class or a callable is documented, by a block that stands in its text: the steps by which the
block is indented, its entries, and the text. -/
inductive Documents (ns : Namespace) : Nat → List String → String → Prop where
  | ofFunction (function : Callable) (hfunction : function ∈ ns.functions.values) :
    Documents ns (function.indent + 1) (docLines ns.shownName function)
      (renderCallable ns.shownName function)
  | ofMethod (c : Class) (hclass : c ∈ ns.classes.values) (method : Callable)
    (hmethod : method ∈ (shownMethods c).values) :
    Documents ns (method.indent + 1) (docLines ns.shownName method)
      (renderCallable ns.shownName method)
  | ofClass (c : Class) (hclass : c ∈ ns.classes.values) :
    Documents ns 1 c.definition.comments (renderClass ns c)

variable {ns : Namespace} {callable : Callable} {entries : List String} {text : String}
  {steps : Nat}

/-! ## What stands in a block -/

/-- What stands between entries: a line feed and blanks. -/
def entrySeparator (steps : Nat) : List Char :=
  '\n' :: (indentation steps).toList

/-- What stands between the triple quotes of a block. -/
def insideOf (steps : Nat) (entries : List String) : List Char :=
  (entrySeparator steps).intercalate (entries.map String.toList)

/-- The text of a block. -/
theorem toList_docBlock (steps : Nat) (entries : List String) :
    (docBlock (indentation steps) entries).toList =
      (indentation steps).toList ++ docQuotes.toList ++ insideOf steps entries ++
        docQuotes.toList := by
  simp only [docBlock, String.toList_append, String.toList_intercalate]
  rfl

/-- The separator is not empty. -/
theorem entrySeparator_ne_nil (steps : Nat) : entrySeparator steps ≠ [] :=
  List.cons_ne_nil _ _

/-- Apart from its line feed, the separator consists of blanks. -/
theorem mem_entrySeparator {c : Char} (h : c ∈ entrySeparator steps) : c = '\n' ∨ c = ' ' := by
  refine (List.mem_cons.mp h).imp_right fun hblank => ?_
  rw [indentation, String.toList_ofList] at hblank
  exact List.eq_of_mem_replicate hblank

/-- The separator has one line feed. -/
theorem count_entrySeparator (steps : Nat) : (entrySeparator steps).count '\n' = 1 := by
  rw [entrySeparator, List.count_cons_self, indentation, String.toList_ofList,
    List.count_replicate, if_neg (by decide)]

/-- Triple quotes stand in a block only where they stand in an entry. -/
theorem quotes_infix_insideOf_iff :
    docQuotes.toList <:+: insideOf steps entries ↔
      ∃ entry ∈ entries, docQuotes.toList <:+: entry.toList := by
  have hdisjoint : ∀ c ∈ entrySeparator steps, c ∉ docQuotes.toList := by
    intro c hc
    rcases mem_entrySeparator hc with rfl | rfl
    · decide
    · decide
  rw [insideOf, Text.infix_intercalate_iff (by decide) (entrySeparator_ne_nil steps) hdisjoint]
  simp only [List.mem_map, exists_exists_and_eq_and]

/-- A block has a line for each entry exactly if no entry has a line feed of its own. -/
theorem count_insideOf_iff (hentries : entries ≠ []) :
    (insideOf steps entries).count '\n' + 1 = entries.length ↔
      ∀ entry ∈ entries, '\n' ∉ entry.toList := by
  rw [insideOf, Text.count_intercalate (count_entrySeparator steps) (by simpa using hentries),
    List.length_map, Nat.add_eq_right, List.count_eq_zero, List.mem_flatten]
  simp

/-- A character other than a line feed and a blank stands before the triple quotes at the end if it
ends the last entry. -/
theorem getLast?_insideOf_eq_some_iff {c : Char} (hfeed : c ≠ '\n') (hblank : c ≠ ' ')
    (hentries : entries ≠ []) :
    (insideOf steps entries).getLast? = some c ↔
      ∃ entry ∈ entries.getLast?, entry.toList.getLast? = some c := by
  have hseparator : (entrySeparator steps).getLast? ≠ some c := by
    intro h
    rcases mem_entrySeparator (List.mem_of_getLast? h) with rfl | rfl
    · exact hfeed rfl
    · exact hblank rfl
  obtain ⟨front, last, rfl⟩ := (List.eq_nil_or_concat entries).resolve_left hentries
  rw [List.concat_eq_append, insideOf, List.map_append, List.map_singleton,
    Text.getLast?_intercalate_eq_some_iff (entrySeparator_ne_nil steps) hseparator]
  simp

/-- A block is one between triple quotes with a line for each entry exactly if its entries fit
there. -/
theorem isDocBlock_iff (steps : Nat) (hentries : entries ≠ []) :
    IsDocBlock (indentation steps) entries (docBlock (indentation steps) entries) ↔
      FitBetweenQuotes entries := by
  have hlast {c : Char} (hfeed : c ≠ '\n') (hblank : c ≠ ' ') :
      (insideOf steps entries).getLast? = some c ↔
        ∃ entry ∈ entries.getLast?, entry.toList.getLast? = some c :=
    getLast?_insideOf_eq_some_iff hfeed hblank hentries
  constructor
  · rintro ⟨inside, htext, hends, hcount⟩
    rw [toList_docBlock] at htext
    obtain rfl := List.append_cancel_left (List.append_cancel_right htext)
    refine ⟨fun entry hentry hquotes => hends.noQuotes ?_, (count_insideOf_iff hentries).mp hcount,
      fun entry hentry => ⟨fun hquote => hends.noQuote ?_, fun hbackslash => hends.noBackslash ?_⟩⟩
    · exact quotes_infix_insideOf_iff.mpr ⟨entry, hentry, hquotes⟩
    · exact (hlast (by decide) (by decide)).mpr ⟨entry, hentry, hquote⟩
    · exact (hlast (by decide) (by decide)).mpr ⟨entry, hentry, hbackslash⟩
  · rintro ⟨hnoQuotes, hnoLineFeed, hlastEntry⟩
    refine ⟨insideOf steps entries, toList_docBlock steps entries, ⟨fun hquotes => ?_,
      fun hquote => ?_, fun hbackslash => ?_⟩, (count_insideOf_iff hentries).mpr hnoLineFeed⟩
    · obtain ⟨entry, hentry, hin⟩ := quotes_infix_insideOf_iff.mp hquotes
      exact hnoQuotes entry hentry hin
    · obtain ⟨entry, hentry, hends⟩ := (hlast (by decide) (by decide)).mp hquote
      exact (hlastEntry entry hentry).1 hends
    · obtain ⟨entry, hentry, hends⟩ := (hlast (by decide) (by decide)).mp hbackslash
      exact (hlastEntry entry hentry).2 hends

/-! ## Where a block stands -/

/-- What functions are documented with stands in a text. -/
theorem Documents.of_mem_functions (h : (steps, entries) ∈ ns.functions.values.map fun function =>
    (function.indent + 1, docLines ns.shownName function)) :
    ∃ text, Documents ns steps entries text := by
  obtain ⟨function, hfunction, heq⟩ := List.mem_map.mp h
  obtain ⟨rfl, rfl⟩ := Prod.mk.inj heq
  exact ⟨_, .ofFunction function hfunction⟩

/-- The block of a callable stands in its text if there is something to say. -/
theorem exists_renderCallable_eq (shown : String → String) (callable : Callable)
    (hlines : docLines shown callable ≠ []) :
    ∃ before after, renderCallable shown callable =
      before ++ docBlock (indentation (callable.indent + 1)) (docLines shown callable) ++
        after := by
  refine ⟨indentation callable.indent ++ "def " ++ callable.name ++ "(" ++
    ", ".intercalate callable.parameters ++ "):\n",
    "\n" ++ indentation (callable.indent + 1) ++ body shown callable, ?_⟩
  simp only [renderCallable, List.isEmpty_eq_false_iff.mpr hlines, if_neg Bool.false_ne_true,
    String.append_assoc]

/-- The block of a class stands in its text if there is something to say. -/
theorem exists_renderClass_eq_docBlock (ns : Namespace) (c : Class)
    (hcomments : c.definition.comments ≠ []) :
    ∃ before after, renderClass ns c =
      before ++ docBlock (indentation 1) c.definition.comments ++ after := by
  unfold renderClass
  dsimp only
  rw [List.isEmpty_eq_false_iff.mpr hcomments, if_neg Bool.false_ne_true, ← String.append_assoc]
  exact ⟨_, _, rfl⟩

/-- A block with entries stands in the text that it belongs to. -/
theorem Documents.exists_eq (h : Documents ns steps entries text) (hentries : entries ≠ []) :
    ∃ before after, text = before ++ docBlock (indentation steps) entries ++ after := by
  cases h with
  | ofFunction function hfunction => exact exists_renderCallable_eq ns.shownName function hentries
  | ofMethod c hclass method hmethod => exact exists_renderCallable_eq ns.shownName method hentries
  | ofClass c hclass => exact exists_renderClass_eq_docBlock ns c hentries

/-! ## Tame entries -/

/-- Tame entries fit between triple quotes. -/
theorem fitBetweenQuotes_of_isTame (h : ∀ entry ∈ entries, IsTame entry) :
    FitBetweenQuotes entries := by
  have hbreaker (c : Char) (hc : c ∈ breakers) {entry : String} (hentry : entry ∈ entries) :
      c ∉ entry.toList := fun hmem => h entry hentry c hmem hc
  refine ⟨fun entry hentry hquotes => ?_, fun entry => hbreaker '\n' (by decide),
    fun entry hlast => ⟨fun hquote => ?_, fun hbackslash => ?_⟩⟩
  · exact hbreaker '"' (by decide) hentry (hquotes.subset (by decide))
  · exact hbreaker '"' (by decide) (List.mem_of_getLast? hlast) (List.mem_of_getLast? hquote)
  · exact hbreaker '\\' (by decide) (List.mem_of_getLast? hlast) (List.mem_of_getLast? hbackslash)

/-- The line of a parameter with a tame name and a tame tag is tame. -/
theorem isTame_parameterLine {shown : String → String}
    (hshown : ∀ name, IsTame name → IsTame (shown name)) {parameter : TypedName}
    (h : parameter.IsTame) : IsTame (parameterLine shown parameter) := by
  have hdescribe := h.tag.describe hshown
  have htag : IsTame (if Tag.isExplicit parameter.tag then "" else
      " (C type: " ++ parameter.tag ++ ")") := by
    split
    · exact fun _ => nofun
    · simp only [isTame_append]
      exact ⟨⟨by decide, h.tag⟩, by decide⟩
  simp only [parameterLine, isTame_append]
  exact ⟨⟨⟨⟨by decide, h.name⟩, by decide⟩, hdescribe⟩, htag⟩

/-- A callable with tame texts is documented by tame lines. -/
theorem isTame_of_mem_docLines {shown : String → String}
    (hshown : ∀ name, IsTame name → IsTame (shown name)) (h : callable.IsTame) :
    ∀ line ∈ docLines shown callable, IsTame line := by
  intro line hline
  rcases List.mem_append.mp hline with htypes | hcomment
  · split at htypes
    · exact absurd htypes List.not_mem_nil
    · rcases List.mem_cons.mp htypes with rfl | htype
      · decide
      · obtain ⟨type, hmem, rfl⟩ := List.mem_map.mp htype
        exact isTame_parameterLine hshown (h.types type hmem)
  · exact h.comments line hcomment

/-- In a tame namespace all blocks have tame entries. -/
theorem Documents.isTame (h : Documents ns steps entries text) (hns : ns.IsTame) :
    ∀ entry ∈ entries, IsTame entry := by
  have hshown (name : String) : IsTame name → IsTame (ns.shownName name) := hns.shownName
  cases h with
  | ofFunction function hfunction =>
    obtain ⟨name, hthere⟩ := Table.mem_values_iff.mp hfunction
    exact isTame_of_mem_docLines hshown (hns.callables (.functionNamed name) function hthere)
  | ofMethod c hclass method hmethod =>
    refine isTame_of_mem_docLines hshown ?_
    rcases Namespace.at?_or_of_mem_shownMethods hclass hmethod with ⟨target, hthere⟩ | rfl
    · exact hns.callables target method hthere
    · refine ⟨fun line hline => ?_, fun _ => nofun⟩
      rw [List.mem_singleton.mp hline]
      decide
  | ofClass c hclass =>
    obtain ⟨nativeName, hthere⟩ := Table.mem_values_iff.mp hclass
    have houtline : ns.outline? nativeName = some c.withoutMethods :=
      congrArg (Option.map Class.withoutMethods) hthere
    exact (hns.classes nativeName c.withoutMethods houtline).comments

/-! ## The blocks of a namespace -/

/-- However a namespace is built: wherever there is something to say about a class or a callable, a
block stands in its text. It is one between triple quotes with a line for each entry exactly if the
entries fit there. All blocks are, if the namespace is built of tame texts. -/
theorem doc_blocks_well_formed (steps : List Namespace.BuildStep) :
    let ns := Namespace.ofSteps steps
    (∀ indent entries text, Documents ns indent entries text → entries ≠ [] →
      let block := docBlock (indentation indent) entries
      (∃ before after, text = before ++ block ++ after) ∧
        (IsDocBlock (indentation indent) entries block ↔ FitBetweenQuotes entries)) ∧
    ((∀ step ∈ steps, ∀ text, step.Brings text → IsTame text) →
      ∀ indent entries text, Documents ns indent entries text → entries ≠ [] →
        IsDocBlock (indentation indent) entries (docBlock (indentation indent) entries)) := by
  intro ns
  refine ⟨fun indent entries text hdocuments hentries => ?_,
    fun htame indent entries text hdocuments hentries => ?_⟩
  · exact ⟨hdocuments.exists_eq hentries, isDocBlock_iff indent hentries⟩
  · have hns : ns.IsTame := Namespace.isTame_ofSteps htame
    exact (isDocBlock_iff indent hentries).mpr
      (fitBetweenQuotes_of_isTame (hdocuments.isTame hns))

/-- A function with a deprecation, an identifier and a parameter. -/
theorem doc_blocks_well_formed_of_deprecation :
    let record : Defs.Record := ⟨.function, "show", ⟨[("c-name", [.str "gtk_show"]),
      ("deprecated", [.str "use present"]),
      ("parameters", [.list [.str "GtkWidget*", .str "widget"]])]⟩⟩
    let ns := Namespace.ofSteps [.define .pygtk record]
    let entries := ["Parameter types:", "     widget -- instance of GtkWidget (C type: GtkWidget*)",
      "Deprecated: use present", "C impl: gtk_show()"]
    (∀ text, record.Holds text → IsTame text) ∧ (∃ text, Documents ns 1 entries text) ∧
      IsDocBlock (indentation 1) entries (docBlock (indentation 1) entries) := by
  intro record ns entries
  have hrecord : record.IsTame := by
    refine Defs.Record.isTame_of_entries (by decide) ?_
    simp only [record, List.forall_mem_cons, List.not_mem_nil, false_implies, implies_true,
      and_true, Defs.Form.isTame_str_iff, Defs.Form.isTame_list_iff]
    decide
  have htame : ∀ step ∈ [Namespace.BuildStep.define .pygtk record],
      ∀ text, step.Brings text → IsTame text := by
    intro step hstep
    rw [List.mem_singleton.mp hstep]
    exact hrecord
  obtain ⟨text, hdocuments⟩ : ∃ text, Documents ns 1 entries text :=
    Documents.of_mem_functions (by decide +kernel)
  exact ⟨hrecord, ⟨text, hdocuments⟩,
    (doc_blocks_well_formed _).2 htame 1 entries text hdocuments (List.cons_ne_nil _ _)⟩

/-- A deprecation with a line feed makes two lines of one entry. -/
theorem line_feed_breaks_doc_block :
    let record : Defs.Record := ⟨.function, "f", ⟨[("c-name", [.str "f"]),
      ("deprecated", [.str "gone\nfor good"])]⟩⟩
    let ns := Namespace.ofSteps [.define .pygtk record]
    let entries := ["Deprecated: gone\nfor good", "C impl: f()"]
    (∃ text, Documents ns 1 entries text) ∧
      ¬IsDocBlock (indentation 1) entries (docBlock (indentation 1) entries) := by
  intro record ns entries
  refine ⟨Documents.of_mem_functions (by decide +kernel), fun hblock => ?_⟩
  have hfit := (isDocBlock_iff 1 (List.cons_ne_nil _ _)).mp hblock
  exact hfit.noLineFeed _ List.mem_cons_self (by decide)

end Stub

end Stubgen
