import Stubgen.Proofs.Text.Joining
import Stubgen.Proofs.Text.Nesting
import Stubgen.Proofs.Wrapper.LongerNames
import Stubgen.Wrapper.Signature

/-!
# Parsing calls

The text inside a call ends at the parenthesis that closes more than were opened. A wrapper parses
its arguments by one of two calls. Each has arguments of its own before the format and behind it,
and then the addresses of the variables that are filled. The arguments are found by their commas,
so a comma in the format moves those behind it.
-/

namespace Stubgen.Wrapper

open Text (Brackets splitAt trim cutFirst?)

variable {depth : Nat} {text beginning inside message : List Char} {names : List String}

/-! ## The text inside a call -/

/-- The text inside a call is what is cut off at the parenthesis that closes too much. -/
theorem untilClosed_eq_cut? (depth : Nat) (text : List Char) :
    untilClosed depth text = (Brackets.round.cut? depth text).map Prod.fst := by
  fun_induction untilClosed depth text with
  | case1 depth => rfl
  | case2 depth cs ih =>
    have hcut : ¬(Brackets.round.closes '(' = true ∧ depth = 0) := fun hcut =>
      absurd hcut.1 (by decide)
    rw [Brackets.cut?, if_neg hcut, Brackets.move_of_opens rfl, ih, Option.map_map, Option.map_map]
    rfl
  | case3 cs => rfl
  | case4 cs depth hopens ih =>
    have hcloses : Brackets.round.closes ')' = true := rfl
    have hcut : ¬(Brackets.round.closes ')' = true ∧ depth.succ = 0) := fun hcut =>
      Nat.succ_ne_zero depth hcut.2
    rw [Brackets.cut?, if_neg hcut, Brackets.move_of_closes hcloses, Nat.succ_sub_one, ih,
      Option.map_map, Option.map_map]
    rfl
  | case5 depth c cs hopens hcloses ih =>
    have hopens' : ¬Brackets.round.opens c = true := by simpa [Brackets.round] using hopens
    have hcloses' : ¬Brackets.round.closes c = true := by simpa [Brackets.round] using hcloses
    rw [Brackets.cut?, if_neg fun hcut => hcloses' hcut.1, Brackets.move_of_plain hopens' hcloses',
      ih, Option.map_map, Option.map_map]
    rfl

/-- The text inside a call settles, and a closing parenthesis follows it. -/
theorem untilClosed_eq_some_iff :
    untilClosed depth text = some inside ↔
      ∃ rest, text = inside ++ ')' :: rest ∧ Brackets.round.Settles depth inside := by
  rw [untilClosed_eq_cut?, Option.map_eq_some_iff]
  constructor
  · rintro ⟨⟨inside, c, rest⟩, hcut, rfl⟩
    obtain ⟨htext, hcloses, hinside⟩ := Brackets.cut?_eq_some_iff.mp hcut
    obtain rfl : c = ')' := decide_eq_true_iff.mp hcloses
    exact ⟨rest, htext, hinside⟩
  · rintro ⟨rest, htext, hinside⟩
    exact ⟨(inside, ')', rest), Brackets.cut?_eq_some_iff.mpr ⟨htext, rfl, hinside⟩, rfl⟩

/-- A call is not closed exactly if the text behind it nests. -/
theorem untilClosed_eq_none_iff :
    untilClosed depth text = none ↔ Brackets.round.Nests depth text := by
  rw [untilClosed_eq_cut?, Option.map_eq_none_iff, Brackets.cut?_eq_none_iff]

/-- Text that settles belongs to the inside of a call. -/
theorem untilClosed_append (h : Brackets.round.Settles 0 beginning) (rest : List Char) :
    untilClosed 0 (beginning ++ rest) = (untilClosed 0 rest).map (beginning ++ ·) := by
  cases hrest : untilClosed 0 rest with
  | none =>
    obtain ⟨hnests, hzero⟩ := Brackets.settles_iff.mp h
    rw [Option.map_none, untilClosed_eq_none_iff, Brackets.nests_append_iff, hzero]
    exact ⟨hnests, untilClosed_eq_none_iff.mp hrest⟩
  | some inside =>
    obtain ⟨tail, rfl, hinside⟩ := untilClosed_eq_some_iff.mp hrest
    rw [Option.map_some, untilClosed_eq_some_iff]
    exact ⟨tail, (List.append_assoc _ _ _).symm, h.append hinside⟩

/-- What stands behind a text that does not settle does not belong to the inside of a call, if it
closes no more than one parenthesis. -/
theorem untilClosed_append_of_not_settles {rest : List Char} (h : ¬Brackets.round.Settles 0 text)
    (hrest : rest.countP Brackets.round.closes ≤ 1) :
    untilClosed 0 (text ++ rest) = untilClosed 0 text := by
  cases hclosed : untilClosed 0 text with
  | none =>
    have hnests := untilClosed_eq_none_iff.mp hclosed
    have hpos : 0 < Brackets.round.depthAfter 0 text :=
      Nat.pos_of_ne_zero fun hzero => h (Brackets.settles_iff.mpr ⟨hnests, hzero⟩)
    rw [untilClosed_eq_none_iff, Brackets.nests_append_iff]
    exact ⟨hnests, Brackets.nests_of_countP_le (hrest.trans hpos)⟩
  | some inside =>
    obtain ⟨tail, rfl, hinside⟩ := untilClosed_eq_some_iff.mp hclosed
    exact untilClosed_eq_some_iff.mpr ⟨tail ++ rest, List.append_assoc _ _ _, hinside⟩

/-- Text without parentheses settles. -/
theorem settles_of_notMem (hopening : '(' ∉ text) (hclosing : ')' ∉ text) :
    Brackets.round.Settles 0 text := by
  refine Brackets.settles_of_plain (fun c hc => ?_) fun c hc => ?_
  · exact decide_eq_false fun heq => hopening (heq ▸ hc)
  · exact decide_eq_false fun heq => hclosing (heq ▸ hc)

/-- What a parsing call is, told by the text behind its opening parenthesis. -/
def ParsingCall.told (call : ParsingCall) (behind : List Char) : CallSite :=
  match untilClosed 0 behind with
  | none => .unterminated
  | some arguments => call.read arguments

/-- A parsing call is told by what follows the first occurrence of its name. -/
theorem ParsingCall.site_eq (call : ParsingCall) (code : List Char) :
    call.site code = (cutFirst? call.name.toList (wrapperText code)).elim .absent
      fun found => call.told found.2 := by
  unfold ParsingCall.site ParsingCall.told
  cases cutFirst? call.name.toList (wrapperText code) with
  | none => rfl
  | some found => rfl

/-- A call with too few arguments is not read. -/
theorem ParsingCall.read_of_count_lt {call : ParsingCall}
    (h : text.count ',' + 1 < call.namesFrom) : call.read text = .malformed := by
  unfold ParsingCall.read
  dsimp only
  rw [List.length_map, Text.length_splitAt, if_pos h]

/-- A call with enough arguments is read. -/
theorem ParsingCall.exists_read_of_le {call : ParsingCall}
    (h : call.namesFrom ≤ text.count ',' + 1) : ∃ types, call.read text = .found types := by
  unfold ParsingCall.read
  dsimp only
  rw [List.length_map, Text.length_splitAt, if_neg (Nat.not_lt_of_le h)]
  exact ⟨_, rfl⟩

/-! ## The two calls -/

/-- A text that is one argument of a call: it holds no comma, no parenthesis and no blank. -/
structure IsArgument (text : List Char) : Prop where
  noComma : ',' ∉ text
  noOpening : '(' ∉ text
  noClosing : ')' ∉ text
  noBlank : ∀ c ∈ text, Text.isBlank c = false

/-- A parsing call as it stands in a wrapper, with the arguments before its format and those between
the format and the variables. -/
structure CallForm where
  call : ParsingCall
  before : List (List Char)
  after : List (List Char)
  formatAt_eq : call.formatAt = before.length
  namesFrom_eq : call.namesFrom = before.length + (1 + after.length)
  begins : call.name.toList.head? = some 'P'
  named : ∀ argument ∈ before ++ after, argument.all isNameChar = true

/-- The call that also parses keyword arguments. -/
def keywordForm : CallForm where
  call := keywordCall
  before := ["args".toList, "kwargs".toList]
  after := ["kwlist".toList]
  formatAt_eq := rfl
  namesFrom_eq := rfl
  begins := by decide
  named := by decide

/-- The call that parses positional arguments. -/
def positionalForm : CallForm where
  call := positionalCall
  before := ["args".toList]
  after := []
  formatAt_eq := rfl
  namesFrom_eq := rfl
  begins := by decide
  named := by decide

/-- The address of a variable. -/
def addressOf (name : String) : List Char :=
  '&' :: name.toList

/-- A text as it is written in code. -/
def quoted (message : List Char) : List Char :=
  '"' :: (message ++ ['"'])

namespace CallForm

/-- What stands before the format of a call. -/
def front (form : CallForm) : List Char :=
  form.before.flatMap (· ++ ", ".toList)

/-- What stands behind the format of a call that fills the variables. -/
def back (form : CallForm) (names : List String) : List Char :=
  (form.after ++ names.map addressOf).flatMap (", ".toList ++ ·)

/-- The arguments of a call with a format, or what is given as one, that fills the variables. -/
def arguments (form : CallForm) (message : List Char) (names : List String) : List Char :=
  form.front ++ (quoted message ++ form.back names)

/-- What stands in a wrapper with such a call between its mark and the format. -/
def lead (form : CallForm) : List Char :=
  "f(self, args) \x7b ".toList ++ (form.call.name.toList ++ form.front)

/-- What stands in such a wrapper behind the format. -/
def tail (form : CallForm) (names : List String) : List Char :=
  form.back names ++ ") \x7d".toList

/-- A wrapper with such a call. -/
def wrapper (form : CallForm) (message : List Char) (names : List String) : List Char :=
  marker ++ (form.lead ++ (quoted message ++ form.tail names))

end CallForm

/-! ## Arguments -/

/-- A name is an argument. -/
theorem isArgument_of_name {name : List Char} (h : name.all isNameChar = true) :
    IsArgument name := by
  have hout {c : Char} (hc : isNameChar c = false) : c ∉ name := fun hmem =>
    nomatch hc.symm.trans (List.all_eq_true.mp h c hmem)
  exact ⟨hout (by decide), hout (by decide), hout (by decide), fun c hmem =>
    isBlank_of_isNameChar (List.all_eq_true.mp h c hmem)⟩

/-- The address of a variable is an argument. -/
theorem isArgument_addressOf {name : String} (h : IsIdentifier name.toList) :
    IsArgument (addressOf name) := by
  obtain ⟨hcomma, hopening, hclosing, hblank⟩ := isArgument_of_name h.chars
  refine ⟨?_, ?_, ?_, List.forall_mem_cons.mpr ⟨by decide, hblank⟩⟩
  · simpa [addressOf] using hcomma
  · simpa [addressOf] using hopening
  · simpa [addressOf] using hclosing

/-- The name in an address. -/
theorem variableName_addressOf {name : String} (h : IsIdentifier name.toList) :
    variableName (addressOf name) = name := by
  have hname : Text.dropStart ['&'] (addressOf name) = name.toList := rfl
  rw [variableName, hname, trim_name h.chars, String.ofList_toList]

/-- An argument stays the same when it is looked for commas and trimmed. -/
theorem map_trim_splitAt_argument (h : IsArgument text) : (splitAt ',' text).map trim = [text] := by
  have htrim : trim text = text := Text.trim_of_ends
    (fun c hc => h.noBlank c (List.mem_of_mem_head? hc))
    (fun c hc => h.noBlank c (List.mem_of_mem_getLast? hc))
  rw [Text.splitAt_of_notMem h.noComma, List.map_singleton, htrim]

/-- Several arguments stay the same. -/
theorem flatMap_splitAt_arguments {parts : List (List Char)} (h : ∀ part ∈ parts, IsArgument part) :
    (parts.flatMap fun part => (splitAt ',' part).map trim) = parts := by
  induction parts with
  | nil => rfl
  | cons part parts ih =>
    obtain ⟨hpart, hparts⟩ := List.forall_mem_cons.mp h
    rw [List.flatMap_cons, map_trim_splitAt_argument hpart, ih hparts, List.singleton_append]

/-- A text in quotes is not trimmed. -/
theorem trim_quoted (message : List Char) : trim (quoted message) = quoted message := by
  refine Text.trim_of_ends (fun c hc => ?_) fun c hc => ?_
  · obtain rfl : '"' = c := Option.some.inj hc
    decide
  · rw [quoted, ← List.cons_append, List.getLast?_append_of_ne_nil _ (List.cons_ne_nil _ _)] at hc
    obtain rfl : '"' = c := Option.some.inj hc
    decide

/-- What stands between the quotes is the text. -/
theorem unquote_quoted (message : List Char) : unquote (quoted message) = message := by
  rw [unquote, trim_quoted]
  simp [quoted]

namespace CallForm

variable {form : CallForm}

/-- Before the format of a call there are arguments. -/
theorem isArgument_of_mem_before : ∀ part ∈ form.before, IsArgument part := fun part hpart =>
  isArgument_of_name (form.named part (List.mem_append_left form.after hpart))

/-- Behind the format of a call there are arguments. -/
theorem isArgument_of_mem_after (hnames : ∀ name ∈ names, IsIdentifier name.toList) :
    ∀ part ∈ form.after ++ names.map addressOf, IsArgument part := by
  intro part hpart
  rcases List.mem_append.mp hpart with hafter | haddress
  · exact isArgument_of_name (form.named part (List.mem_append_right form.before hafter))
  · obtain ⟨name, hname, rfl⟩ := List.mem_map.mp haddress
    exact isArgument_addressOf (hnames name hname)

/-- A character that is in no argument, and not between arguments, is not before the format. -/
theorem notMem_front {c : Char} (hmark : c ∉ ", ".toList)
    (hargument : ∀ part, IsArgument part → c ∉ part) : c ∉ form.front := by
  intro hc
  obtain ⟨part, hpart, hmem⟩ := List.mem_flatMap.mp hc
  rcases List.mem_append.mp hmem with hin | hin
  · exact hargument part (isArgument_of_mem_before part hpart) hin
  · exact hmark hin

/-- Such a character is not behind the format either. -/
theorem notMem_back {c : Char} (hmark : c ∉ ", ".toList)
    (hargument : ∀ part, IsArgument part → c ∉ part)
    (hnames : ∀ name ∈ names, IsIdentifier name.toList) : c ∉ form.back names := by
  intro hc
  obtain ⟨part, hpart, hmem⟩ := List.mem_flatMap.mp hc
  rcases List.mem_append.mp hmem with hin | hin
  · exact hmark hin
  · exact hargument part (isArgument_of_mem_after hnames part hpart) hin

/-- What stands behind the format settles. -/
theorem settles_back (hnames : ∀ name ∈ names, IsIdentifier name.toList) :
    Brackets.round.Settles 0 (form.back names) :=
  settles_of_notMem (notMem_back (by decide) (fun _ => IsArgument.noOpening) hnames)
    (notMem_back (by decide) (fun _ => IsArgument.noClosing) hnames)

/-- What stands before the format settles, with the quote that begins it. -/
theorem settles_front (form : CallForm) : Brackets.round.Settles 0 (form.front ++ ['"']) := by
  have hfront : Brackets.round.Settles 0 form.front :=
    settles_of_notMem (notMem_front (by decide) fun _ => IsArgument.noOpening)
      (notMem_front (by decide) fun _ => IsArgument.noClosing)
  exact hfront.append (by decide)

/-- What stands behind the format closes the call, and nothing else. -/
theorem countP_closes_tail (hnames : ∀ name ∈ names, IsIdentifier name.toList) :
    (form.tail names).countP Brackets.round.closes = 1 := by
  have hback : (form.back names).countP Brackets.round.closes = 0 :=
    List.countP_eq_zero.mpr fun c hc hcloses =>
      notMem_back (by decide) (fun _ => IsArgument.noClosing) hnames
        (decide_eq_true_iff.mp hcloses ▸ hc)
  rw [tail, List.countP_append, hback]
  rfl

/-- The arguments of a call settle if its format does. -/
theorem settles_arguments (hnames : ∀ name ∈ names, IsIdentifier name.toList)
    (hmessage : Brackets.round.Settles 0 message) :
    Brackets.round.Settles 0 (form.arguments message names) := by
  have hquote : Brackets.round.Settles 0 ['"'] := by decide
  have hbehind := (hmessage.append hquote).append (form.settles_back hnames)
  have htext : form.arguments message names =
      form.front ++ ['"'] ++ (message ++ ['"'] ++ form.back names) := by
    simp [arguments, quoted]
  rw [htext]
  exact form.settles_front.append hbehind

/-- The arguments of a call are told apart by commas, and so are the pieces of its format. -/
theorem map_trim_splitAt_arguments (hnames : ∀ name ∈ names, IsIdentifier name.toList)
    (message : List Char) :
    (splitAt ',' (form.arguments message names)).map trim =
      form.before ++ ((splitAt ',' (quoted message)).map trim ++
        (form.after ++ names.map addressOf)) := by
  rw [arguments, front, back, Text.map_trim_splitAt_behind, Text.map_trim_splitAt_before,
    flatMap_splitAt_arguments form.isArgument_of_mem_before,
    flatMap_splitAt_arguments (form.isArgument_of_mem_after hnames)]

/-- A call is read if there are arguments behind the one that is taken for its format. -/
theorem read_of_parts {piece : List Char} {others : List (List Char)}
    (hparts : (splitAt ',' text).map trim = form.before ++ piece :: others)
    (hlength : form.after.length ≤ others.length) :
    form.call.read text =
      .found (takenTypes ((others.drop form.after.length).map variableName)
        (formatSection (unquote piece))) := by
  have henough : ¬(form.before ++ piece :: others).length < form.call.namesFrom := by
    rw [form.namesFrom_eq, List.length_append, List.length_cons]
    omega
  have hformat : (form.before ++ piece :: others).getD form.call.formatAt [] = piece := by
    rw [form.formatAt_eq, List.getD_eq_getElem?_getD, List.getElem?_append_right (Nat.le_refl _),
      Nat.sub_self]
    rfl
  have hvariables : (form.before ++ piece :: others).drop form.call.namesFrom =
      others.drop form.after.length := by
    rw [form.namesFrom_eq, ← List.drop_drop, List.drop_left, Nat.add_comm, List.drop_succ_cons]
  unfold ParsingCall.read
  dsimp only
  rw [hparts, if_neg henough, hformat, hvariables]

/-- A call whose format has no comma is read as it is meant. -/
theorem read_arguments (hnames : ∀ name ∈ names, IsIdentifier name.toList)
    (hcomma : ',' ∉ message) :
    form.call.read (form.arguments message names) =
      .found (takenTypes names (formatSection message)) := by
  have hquoted : (splitAt ',' (quoted message)).map trim = [quoted message] := by
    have hnone : ',' ∉ quoted message := by simp [quoted, hcomma]
    rw [Text.splitAt_of_notMem hnone, List.map_singleton, trim_quoted]
  have hparts := form.map_trim_splitAt_arguments hnames message
  have hvariables : (names.map addressOf).map variableName = names := by
    have hname : ∀ name ∈ names, (variableName ∘ addressOf) name = id name := fun name hname =>
      variableName_addressOf (hnames name hname)
    rw [List.map_map, List.map_congr_left hname, List.map_id]
  rw [hquoted, List.singleton_append] at hparts
  rw [read_of_parts hparts (by simp), List.drop_left, hvariables, unquote_quoted]

/-- A comma in the format splits it. What stands before the comma is taken for the format, with the
quote that begins it, and what stands behind the next arguments is taken for variables. -/
theorem read_arguments_of_comma {rest : List Char}
    (hnames : ∀ name ∈ names, IsIdentifier name.toList) (hcomma : ',' ∉ inside) :
    ∃ others, others ≠ [] ∧
      form.call.read (form.arguments (inside ++ ',' :: rest) names) =
        .found (takenTypes others (formatSection (unquote (trim ('"' :: inside))))) := by
  have hparts := form.map_trim_splitAt_arguments hnames (inside ++ ',' :: rest)
  have hquoted : quoted (inside ++ ',' :: rest) = ('"' :: inside) ++ ',' :: (rest ++ ['"']) := by
    simp [quoted]
  have hfirst : ',' ∉ '"' :: inside := by simp [hcomma]
  rw [hquoted, Text.splitAt_append, Text.splitAt_of_notMem hfirst, List.map_append,
    List.map_singleton, List.append_assoc, List.singleton_append] at hparts
  have hpos : 0 < ((splitAt ',' (rest ++ ['"'])).map trim).length := by
    rw [List.length_map]
    exact List.length_pos_iff.mpr (Text.splitAt_ne_nil ',' _)
  refine ⟨_, ?_, read_of_parts hparts ?_⟩
  · refine List.ne_nil_of_length_pos ?_
    simp only [List.length_map, List.length_drop, List.length_append] at hpos ⊢
    omega
  · simp only [List.length_append]
    omega

/-- What a wrapper shows behind its mark. -/
theorem wrapperText_wrapper (form : CallForm) (message : List Char) (names : List String) :
    wrapperText (form.wrapper message names) =
      form.lead ++ (quoted message ++ form.tail names) := by
  rw [wrapperText, wrapper, Text.cutFirst?_self_append]

/-- What a wrapper shows of its call is told by the arguments, if the call is closed. -/
theorem site_wrapper (form : CallForm) (message : List Char) (names : List String) :
    form.call.site (form.wrapper message names) =
      form.call.told (form.front ++ (quoted message ++ form.tail names)) := by
  obtain ⟨letters, hname⟩ : ∃ letters, form.call.name.toList = 'P' :: letters :=
    List.head?_eq_some_iff.mp form.begins
  obtain ⟨start, hfirst, hlead⟩ : ∃ start, 'P' ∉ start ∧
      form.lead = start ++ (form.call.name.toList ++ form.front) := ⟨_, by decide, rfl⟩
  have hcut : cutFirst? form.call.name.toList (wrapperText (form.wrapper message names)) =
      some (start, form.front ++ (quoted message ++ form.tail names)) := by
    rw [form.wrapperText_wrapper, hlead, List.append_assoc, List.append_assoc, hname,
      Text.cutFirst?_append_of_notMem hfirst, Text.cutFirst?_self_append, Option.map_some,
      List.append_nil]
  rw [ParsingCall.site_eq, hcut, Option.elim_some]

/-- If the parentheses of its format settle, then a call is closed behind its arguments. -/
theorem site_of_settles (hnames : ∀ name ∈ names, IsIdentifier name.toList)
    (hmessage : Brackets.round.Settles 0 message) :
    form.call.site (form.wrapper message names) =
      form.call.read (form.arguments message names) := by
  have htext : form.front ++ (quoted message ++ form.tail names) =
      form.arguments message names ++ ')' :: " \x7d".toList := by
    simp only [arguments, tail, List.append_assoc]
    rfl
  have hclosed := untilClosed_eq_some_iff.mpr ⟨_, htext, form.settles_arguments hnames hmessage⟩
  rw [form.site_wrapper, ParsingCall.told, hclosed]

/-- A call that does not stand before the format is looked for in the format and behind it. -/
theorem site_of_lead {call : ParsingCall} (hquote : '"' ∉ call.name.toList)
    (hlead : cutFirst? call.name.toList form.lead = none) (message : List Char)
    (names : List String) :
    call.site (form.wrapper message names) =
      (cutFirst? call.name.toList (message ++ '"' :: form.tail names)).elim .absent
        fun found => call.told found.2 := by
  have hsome : call.name.toList ≠ [] := by
    intro hnil
    rw [hnil, ← List.nil_append form.lead, Text.cutFirst?_self_append] at hlead
    exact nomatch hlead
  have htext : quoted message ++ form.tail names = '"' :: (message ++ '"' :: form.tail names) := by
    simp [quoted]
  rw [ParsingCall.site_eq, form.wrapperText_wrapper, htext,
    Text.cutFirst?_append_mark hsome hquote hlead, Option.elim_map]
  rfl

end CallForm

end Stubgen.Wrapper
