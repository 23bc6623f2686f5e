import Stubgen.Proofs.Override.Blocks

/-!
# Override texts put together

What an override text holds is made up of what its parts hold: the parts between separator lines are
read one after the other, each goes on from what the parts before it hold, and none has an effect on
how another is read. A list of wrappers that is written out as blocks is therefore read back as it
was.
-/

namespace Stubgen

open Text (isBlank trimEnd)

namespace OverrideSet

variable {set first second : OverrideSet}

/-! ## What a set goes on with -/

/-- No name stands twice in one of the ledgers of a set. -/
structure IsKeyed (set : OverrideSet) : Prop where
  wrappers : set.wrappers.keys.Nodup
  attributes : set.attributes.keys.Nodup
  slots : set.slots.keys.Nodup

/-- The names stay different when a block is added. -/
theorem IsKeyed.add (h : set.IsKeyed) (block : OverrideBlock) : (set.add block).IsKeyed := by
  cases block with
  | wrapper function override => exact { h with wrappers := Ledger.nodup_keys_put h.wrappers _ _ }
  | «attribute» name code => exact { h with attributes := Ledger.nodup_keys_put h.attributes _ _ }
  | slot name code => exact { h with slots := Ledger.nodup_keys_put h.slots _ _ }
  | ignore names => exact ⟨h.wrappers, h.attributes, h.slots⟩
  | «include» names => exact h
  | nameless => exact h
  | other => exact h

/-- The empty set has no names. -/
theorem isKeyed_empty : empty.IsKeyed :=
  ⟨List.nodup_nil, List.nodup_nil, List.nodup_nil⟩

/-- The names stay different when blocks are added. -/
theorem IsKeyed.addAll (h : set.IsKeyed) (blocks : List OverrideBlock) :
    (blocks.foldl OverrideSet.add set).IsKeyed := by
  induction blocks generalizing set with
  | nil => exact h
  | cons block blocks ih => exact ih (h.add block)

/-- A set with the entries of another one behind its own. -/
def followedBy (first second : OverrideSet) : OverrideSet where
  wrappers := first.wrappers.putAll second.wrappers.entries
  attributes := first.attributes.putAll second.attributes.entries
  slots := first.slots.putAll second.slots.entries
  ignores := first.ignores ++ second.ignores

/-- A block that is added to the second set is added to both. -/
theorem followedBy_add (hfirst : first.IsKeyed) (hsecond : second.IsKeyed)
    (block : OverrideBlock) :
    first.followedBy (second.add block) = (first.followedBy second).add block := by
  cases block with
  | wrapper function override =>
    exact congrArg ({ first.followedBy second with wrappers := · })
      (Ledger.putAll_entries_put _ hfirst.wrappers hsecond.wrappers function override)
  | «attribute» name code =>
    exact congrArg ({ first.followedBy second with attributes := · })
      (Ledger.putAll_entries_put _ hfirst.attributes hsecond.attributes name code)
  | slot name code =>
    exact congrArg ({ first.followedBy second with slots := · })
      (Ledger.putAll_entries_put _ hfirst.slots hsecond.slots name code)
  | ignore names =>
    exact congrArg ({ first.followedBy second with ignores := · })
      (List.append_assoc _ _ names).symm
  | «include» names => rfl
  | nameless => rfl
  | other => rfl

/-- Blocks are added to a set as they are to the empty set, which then follows. -/
theorem addAll_eq_followedBy (h : set.IsKeyed) (blocks : List OverrideBlock) :
    blocks.foldl OverrideSet.add set = set.followedBy (blocks.foldl OverrideSet.add empty) := by
  induction blocks using List.reverseRecOn with
  | nil => simp [followedBy, empty, Ledger.putAll, Ledger.empty]
  | append_singleton blocks block ih =>
    rw [List.foldl_concat, List.foldl_concat, ih,
      followedBy_add h (isKeyed_empty.addAll blocks) block]

/-- How a set goes on from a first one with what a second one holds. -/
structure Continues (first second joined : OverrideSet) : Prop where
  wrappers : Ledger.Continues first.wrappers second.wrappers joined.wrappers
  attributes : Ledger.Continues first.attributes second.attributes joined.attributes
  slots : Ledger.Continues first.slots second.slots joined.slots
  /-- The names to leave out are those of the first set and then those of the second. -/
  ignores : joined.ignores = first.ignores ++ second.ignores

/-- A set that another one follows goes on with it. -/
theorem continues_followedBy (first : OverrideSet) (h : second.IsKeyed) :
    Continues first second (first.followedBy second) where
  wrappers := Ledger.continues_putAll _ h.wrappers
  attributes := Ledger.continues_putAll _ h.attributes
  slots := Ledger.continues_putAll _ h.slots
  ignores := rfl

/-- A text with a separator line in it goes on from what stands before the line with what stands
behind it. -/
theorem ofText_continues (front rest : String) :
    Continues (ofText front) (ofText rest) (ofText (front ++ "\n%%\n" ++ rest)) := by
  have hkeyed (text : String) : (ofText text).IsKeyed :=
    isKeyed_empty.addAll (OverrideBlock.ofText text)
  have hjoined : ofText (front ++ "\n%%\n" ++ rest) = (ofText front).followedBy (ofText rest) := by
    rw [ofText, OverrideBlock.ofText_append, List.foldl_append]
    exact addAll_eq_followedBy (hkeyed front) (OverrideBlock.ofText rest)
  rw [hjoined]
  exact continues_followedBy _ (hkeyed rest)

/-- The set that holds wrappers and nothing else. -/
def ofWrappers (wrappers : Ledger Override) : OverrideSet :=
  { empty with wrappers }

/-- Wrappers that are added to a set of wrappers are written one after the other. -/
theorem addAll_wrappers (ledger : Ledger Override) (list : List (String × Override)) :
    (list.map fun entry => OverrideBlock.wrapper entry.1 entry.2).foldl OverrideSet.add
      (ofWrappers ledger) = ofWrappers (ledger.putAll list) := by
  induction list generalizing ledger with
  | nil => rfl
  | cons entry list ih => exact ih (ledger.put entry.1 entry.2)

end OverrideSet

/-! ## Wrappers that are written out -/

/-- What stands behind the name of a function on a command line that asks for a style. The two
keywords ask for theirs, and no word or any other one leaves the arguments positional. -/
inductive CallStyle.AskedBy : CallStyle → String → Prop
  | keywords : AskedBy .keywords " kwargs"
  | noArguments : AskedBy .noArguments " noargs"
  | nothing : AskedBy .positional ""
  | other (word : String) (plain : ∀ c ∈ word.toList, isBlank c = false)
      (kwargs : word ≠ "kwargs") (noargs : word ≠ "noargs") : AskedBy .positional (" " ++ word)

namespace CallStyle.AskedBy

variable {style : CallStyle} {flag : String}

/-- A flag is empty or begins with a blank, so it does not go on with the word before it. -/
theorem eq_nil_or_cons (h : AskedBy style flag) :
    flag.toList = [] ∨ ∃ word, flag.toList = ' ' :: word ∧ ∀ c ∈ word, isBlank c = false := by
  cases h with
  | keywords => exact .inr ⟨"kwargs".toList, rfl, Text.not_blank_of_all (by decide)⟩
  | noArguments => exact .inr ⟨"noargs".toList, rfl, Text.not_blank_of_all (by decide)⟩
  | nothing => exact .inl rfl
  | other word plain kwargs noargs =>
    exact .inr ⟨word.toList, by rw [String.toList_append]; rfl, plain⟩

/-- A flag does not end the line. -/
theorem newline_not_mem (h : AskedBy style flag) : '\n' ∉ flag.toList := by
  rcases h.eq_nil_or_cons with hnil | ⟨word, hword, hplain⟩
  · rw [hnil]
    exact List.not_mem_nil
  · rw [hword, List.mem_cons, not_or]
    exact ⟨by decide, fun hmem => absurd (hplain _ hmem) (by decide)⟩

/-- The words of a flag ask for the style. -/
theorem styleOf_eq (h : AskedBy style flag) :
    OverrideBlock.styleOf (OverrideBlock.wordsOf flag.toList) = style := by
  cases h with
  | keywords => decide
  | noArguments => decide
  | nothing => rfl
  | other word plain kwargs noargs =>
    have hwords :
        OverrideBlock.wordsOf (" " ++ word).toList = OverrideBlock.wordsOf word.toList := by
      rw [String.toList_append, OverrideBlock.wordsOf, OverrideBlock.wordsOf]
      exact congrArg _ (Text.words_cons_of_blank (by decide) word.toList)
    rw [hwords]
    by_cases hword : word.toList = []
    · rw [hword]
      rfl
    · rw [OverrideBlock.wordsOf_of_plain hword plain, String.ofList_toList]
      simp [OverrideBlock.styleOf, Ne.symm kwargs, Ne.symm noargs]

end CallStyle.AskedBy

/-- A wrapper that can be written as a block, with what is written on its command line. -/
structure WrittenWrapper where
  function : String
  style : CallStyle
  /-- What stands behind the name of the function. -/
  flag : String
  body : String
  function_ne : function ≠ ""
  function_plain : ∀ c ∈ function.toList, isBlank c = false
  asked : style.AskedBy flag
  /-- No line of the body is a separator line. -/
  body_lacks : OverrideBlock.LacksSeparator body.toList

namespace WrittenWrapper

variable (wrapper : WrittenWrapper)

/-- The command line of a wrapper. -/
def command : String :=
  "override " ++ wrapper.function ++ wrapper.flag

/-- The text of a wrapper: its command line and its body. -/
def text : String :=
  wrapper.command ++ "\n" ++ wrapper.body

/-- What is read from the text: the code is the body without the blanks at its end. -/
def entry : String × Override :=
  (wrapper.function, ⟨wrapper.style, String.ofList (trimEnd wrapper.body.toList)⟩)

/-- The words of a command line. -/
theorem wordsOf_command :
    OverrideBlock.wordsOf wrapper.command.toList =
      "override" :: wrapper.function :: OverrideBlock.wordsOf wrapper.flag.toList := by
  have hblank : isBlank ' ' = true := by decide
  have hname : wrapper.function.toList ≠ [] := fun hnil =>
    wrapper.function_ne (String.toList_eq_nil_iff.mp hnil)
  have hfunction : OverrideBlock.wordsOf wrapper.function.toList = [wrapper.function] := by
    rw [OverrideBlock.wordsOf_of_plain hname wrapper.function_plain, String.ofList_toList]
  have hrest : OverrideBlock.wordsOf (wrapper.function.toList ++ wrapper.flag.toList) =
      wrapper.function :: OverrideBlock.wordsOf wrapper.flag.toList := by
    rcases wrapper.asked.eq_nil_or_cons with hnil | ⟨word, hword, _⟩
    · rw [hnil, List.append_nil, hfunction]
      rfl
    · rw [hword, OverrideBlock.wordsOf_append_blank hblank, hfunction,
        OverrideBlock.wordsOf, OverrideBlock.wordsOf, Text.words_cons_of_blank hblank]
      rfl
  have hcommand : wrapper.command.toList =
      "override".toList ++ ' ' :: (wrapper.function.toList ++ wrapper.flag.toList) := by
    rw [command, String.toList_append, String.toList_append, List.append_assoc]
    rfl
  rw [hcommand, OverrideBlock.wordsOf_append_blank hblank, hrest]
  rfl

/-- The command line is one line. -/
theorem newline_not_mem_command : '\n' ∉ wrapper.command.toList := by
  have hoverride : '\n' ∉ "override ".toList := by decide
  have hfunction : '\n' ∉ wrapper.function.toList := fun hmem =>
    absurd (wrapper.function_plain _ hmem) (by decide)
  simp only [command, String.toList_append, List.mem_append, not_or]
  exact ⟨⟨hoverride, hfunction⟩, wrapper.asked.newline_not_mem⟩

/-- The text of a wrapper is one block, which is read as the wrapper. -/
theorem blocks_text :
    OverrideBlock.ofText wrapper.text = [.wrapper wrapper.entry.1 wrapper.entry.2] := by
  have htext : wrapper.text.toList = wrapper.command.toList ++ '\n' :: wrapper.body.toList := by
    rw [text, String.toList_append, String.toList_append, List.append_assoc]
    rfl
  have hfirst : ∃ rest, wrapper.command.toList = 'o' :: rest := by
    rw [command, String.toList_append, String.toList_append]
    exact ⟨_, rfl⟩
  have hplain : ∀ line ∈ OverrideBlock.linesOf wrapper.text.toList,
      OverrideBlock.isSeparator line = false := by
    obtain ⟨rest, hrest⟩ := hfirst
    rw [htext, OverrideBlock.linesOf_append_newline wrapper.newline_not_mem_command]
    refine List.forall_mem_cons.mpr ⟨?_, wrapper.body_lacks.plain⟩
    rw [hrest]
    rfl
  have hbegins : ∃ c ∈ wrapper.command.toList.head?, isBlank c = false := by
    obtain ⟨rest, hrest⟩ := hfirst
    exact ⟨'o', by rw [hrest]; rfl, by decide⟩
  rw [OverrideBlock.ofText, OverrideBlock.pieces_of_plain hplain, OverrideBlock.flatten_linesOf,
    List.map_singleton, htext,
    OverrideBlock.ofPiece_of_command hbegins wrapper.newline_not_mem_command, wordsOf_command,
    OverrideBlock.ofCommand, wrapper.asked.styleOf_eq]
  rfl

/-- Wrappers that are written out with separator lines between them are the blocks of the text. -/
theorem blocks_intercalate {wrappers : List WrittenWrapper} (h : wrappers ≠ []) :
    OverrideBlock.ofText ("\n%%\n".intercalate (wrappers.map (·.text))) =
      (wrappers.map (·.entry)).map fun entry => .wrapper entry.1 entry.2 := by
  have hblocks : ∀ wrapper ∈ wrappers, OverrideBlock.ofText wrapper.text =
      [.wrapper wrapper.entry.1 wrapper.entry.2] := fun wrapper _ => wrapper.blocks_text
  rw [OverrideBlock.ofText_intercalate (List.map_eq_nil_iff.not.mpr h), List.flatMap_map,
    List.flatMap_congr hblocks, ← List.map_eq_flatMap, List.map_map]
  rfl

end WrittenWrapper

namespace OverrideSet

/-- Override texts are read block by block. A text with a separator line in it goes on from what
stands before the line with what stands behind it, a written wrapper is read back as it was, and a
list of written wrappers with separator lines between them is read back in its order. -/
theorem reads_block_by_block :
    (∀ front rest : String,
      Continues (ofText front) (ofText rest) (ofText (front ++ "\n%%\n" ++ rest))) ∧
    (∀ wrapper : WrittenWrapper, ofText wrapper.text = ofWrappers ⟨[wrapper.entry]⟩) ∧
    ∀ wrappers : List WrittenWrapper,
      ofText ("\n%%\n".intercalate (wrappers.map (·.text))) =
          ofWrappers (Ledger.empty.putAll (wrappers.map (·.entry))) ∧
        ((wrappers.map (·.function)).Nodup →
          ofText ("\n%%\n".intercalate (wrappers.map (·.text))) =
            ofWrappers ⟨wrappers.map (·.entry)⟩) := by
  have hone (wrapper : WrittenWrapper) : ofText wrapper.text = ofWrappers ⟨[wrapper.entry]⟩ := by
    rw [ofText, wrapper.blocks_text]
    rfl
  have hlist (wrappers : List WrittenWrapper) :
      ofText ("\n%%\n".intercalate (wrappers.map (·.text))) =
        ofWrappers (Ledger.empty.putAll (wrappers.map (·.entry))) := by
    by_cases hsome : wrappers = []
    · rw [hsome]
      rfl
    · rw [ofText, WrittenWrapper.blocks_intercalate hsome]
      exact addAll_wrappers .empty (wrappers.map (·.entry))
  refine ⟨ofText_continues, hone, fun wrappers => ⟨hlist wrappers, fun hnames => ?_⟩⟩
  rw [hlist wrappers, Ledger.putAll_empty]
  rwa [List.map_map]

/-- Percent signs within a line, blank lines and a blank body are read back. -/
theorem reads_block_by_block_of_two :
    ∃ first second : WrittenWrapper,
      first.text = "override gtk_main noargs\nint rest = a %% b;\n\nreturn Py_None;\n\n" ∧
      second.text = "override gtk_widget_show kwargs\n" ∧
      [first.function, second.function].Nodup ∧
      ofText ("\n%%\n".intercalate [first.text, second.text]) =
        ofWrappers ⟨[("gtk_main", ⟨.noArguments, "int rest = a %% b;\n\nreturn Py_None;"⟩),
          ("gtk_widget_show", ⟨.keywords, ""⟩)]⟩ := by
  let first : WrittenWrapper :=
    ⟨"gtk_main", .noArguments, " noargs", "int rest = a %% b;\n\nreturn Py_None;\n\n", by decide,
      Text.not_blank_of_all (by decide), .noArguments, ⟨by decide, by decide +kernel⟩⟩
  let second : WrittenWrapper :=
    ⟨"gtk_widget_show", .keywords, " kwargs", "", by decide, Text.not_blank_of_all (by decide),
      .keywords, ⟨by decide, by decide +kernel⟩⟩
  have hnames : ([first, second].map (·.function)).Nodup := by decide
  have hcode : String.ofList (trimEnd first.body.toList) =
      "int rest = a %% b;\n\nreturn Py_None;" := by decide
  have hempty : String.ofList (trimEnd second.body.toList) = "" := by decide
  refine ⟨first, second, by decide, by decide, hnames, ?_⟩
  rw [← hcode, ← hempty]
  exact (reads_block_by_block.2.2 [first, second]).2 hnames

end OverrideSet

end Stubgen
