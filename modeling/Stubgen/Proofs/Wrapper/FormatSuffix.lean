import Stubgen.Proofs.Wrapper.Calls
import Stubgen.Proofs.Wrapper.TakenValues

/-!
# What follows a format

Behind the format of a parsing call there may be a name or a message, which has no bearing on the
parameters. It is cut off from the format, but only after the call and its arguments have been
found in the text. This file tells which names and messages make no difference: those without
commas in which all parentheses are closed, unless a colon follows the semicolon of a message. All
others spoil the parameters of some call.
-/

namespace Stubgen.Wrapper

open Text (Brackets cutFirst? trim)

/-- The text of a format: nothing in it ends it, and its parentheses are all closed. -/
structure IsFormatText (format : List Char) : Prop where
  noQuote : '"' ∉ format
  noComma : ',' ∉ format
  noColon : ':' ∉ format
  noSemicolon : ';' ∉ format
  settles : Brackets.round.Settles 0 format

/-- What may follow a format: nothing, a name behind a colon, or a message behind a semicolon. -/
structure IsSuffix (suffix : List Char) : Prop where
  begins : ∀ c ∈ suffix.head?, c = ':' ∨ c = ';'
  noQuote : '"' ∉ suffix

/-- A name or a message that leaves the arguments of a call where they are. -/
structure IsHarmless (suffix : List Char) : Prop where
  noComma : ',' ∉ suffix
  settles : Brackets.round.Settles 0 suffix
  noColon : suffix.head? = some ';' → ':' ∉ suffix

/-- The two calls that parse the arguments of a wrapper. -/
def callForms : List CallForm :=
  [keywordForm, positionalForm]

/-- A wrapper of this form tells what the format takes, for every format before the suffix and all
variables. -/
def CallForm.Ignores (form : CallForm) (suffix : List Char) : Prop :=
  ∀ names format, (∀ name ∈ names, IsIdentifier name.toList) → IsFormatText format →
    parameters? (form.wrapper (format ++ suffix) names) = some (takenTypes names format)

variable {names : List String} {format suffix message code text inside : List Char} {c : Char}

/-! ## Formats -/

/-- A mark behind a text without it ends the text. -/
theorem upTo_append {mark : Char} (hformat : mark ∉ format)
    (hsuffix : ∀ c ∈ suffix.head?, c = mark) : Text.upTo mark (format ++ suffix) = format :=
  Text.takeWhile_append_exact (fun _ hc => decide_eq_true fun heq => hformat (heq ▸ hc))
    fun c hc => decide_eq_false (not_not_intro (hsuffix c hc))

/-- A name is cut off from the format, and so is a message without colons. -/
theorem formatSection_append (hformat : IsFormatText format) (hsuffix : IsSuffix suffix)
    (hcolon : suffix.head? = some ';' → ':' ∉ suffix) :
    formatSection (format ++ suffix) = format := by
  have hmem : ':' ∈ format ++ suffix ↔ ':' ∈ suffix := by simp [hformat.noColon]
  unfold formatSection
  split
  · next hnamed =>
    refine upTo_append hformat.noColon fun c hc => (hsuffix.begins c hc).resolve_right ?_
    rintro rfl
    exact hcolon hc (hmem.mp hnamed)
  · next hnamed =>
    refine upTo_append hformat.noSemicolon fun c hc => (hsuffix.begins c hc).resolve_left ?_
    rintro rfl
    exact hnamed (hmem.mpr (List.mem_of_mem_head? hc))

/-- A format begins with its first character, unless this cuts off all of it. -/
theorem exists_formatSection_cons (hcolon : c ≠ ':') (hsemicolon : c ≠ ';' ∨ ':' ∈ text) :
    ∃ rest, formatSection (c :: text) = c :: rest := by
  unfold formatSection Text.upTo
  split
  · exact ⟨_, List.takeWhile_cons_of_pos (by simp [hcolon])⟩
  · next hnamed =>
    have hother : c ≠ ';' := hsemicolon.resolve_right fun hin =>
      hnamed (List.mem_cons_of_mem c hin)
    exact ⟨_, List.takeWhile_cons_of_pos (by simp [hother])⟩

/-- Items that follow a value leave values there. -/
theorem foldl_takeItem_ne_nil {done : List TypedName} (hdone : done ≠ [])
    (used : List (String × Item)) : used.foldl takeItem done ≠ [] := by
  induction used generalizing done with
  | nil => exact hdone
  | cons entry used ih =>
    obtain ⟨name, item⟩ := entry
    obtain ⟨last, earlier, rfl⟩ := List.exists_cons_of_ne_nil hdone
    refine ih ?_
    cases item <;> exact List.cons_ne_nil _ _

/-- A format that begins with a value takes something, if there is a variable. -/
theorem takenTypes_ne_nil {rest : List Char} (hnames : names ≠ []) (hopens : ¬isOpening c = true)
    (hkept : ¬(isClosing c || c = '&' || c = '|') = true) (hmark : ¬(c = '!' || c = '#') = true) :
    takenTypes names (c :: rest) ≠ [] := by
  obtain ⟨name, names, rfl⟩ := List.exists_cons_of_ne_nil hnames
  rw [takenTypes_eq, items_cons_of_kept hopens hkept, if_neg hmark, List.zip_cons_cons,
    List.foldl_cons]
  exact List.reverse_ne_nil_iff.mpr (foldl_takeItem_ne_nil (List.cons_ne_nil _ _) _)

/-- If the call that also parses keyword arguments is not read, then the other one is. -/
theorem parameters?_of_not_found (h : ∀ types, keywordCall.site code ≠ .found types) :
    parameters? code =
      match positionalCall.site code with
      | .found types => some types
      | _ => none := by
  unfold parameters?
  split
  · next types hfound => exact absurd hfound (h types)
  · rfl

/-! ## Harmless suffixes -/

/-- In a wrapper with a call that parses positional arguments, no other call is read if there are no
commas in the message and its parentheses settle. -/
theorem keywordCall_not_found (hnames : ∀ name ∈ names, IsIdentifier name.toList)
    (hcomma : ',' ∉ message) (hmessage : Brackets.round.Settles 0 message)
    (types : List TypedName) :
    keywordCall.site (positionalForm.wrapper message names) ≠ .found types := by
  have hquote : '"' ∉ keywordCall.name.toList := by decide
  rw [CallForm.site_of_lead hquote (by decide)]
  cases hcut : cutFirst? keywordCall.name.toList message with
  | none =>
    have hback : '(' ∉ positionalForm.back names :=
      CallForm.notMem_back (by decide) (fun _ => IsArgument.noOpening) hnames
    have hopening : '(' ∉ positionalForm.tail names := by simp [CallForm.tail, hback]
    have htail : cutFirst? keywordCall.name.toList (positionalForm.tail names) = none :=
      Text.cutFirst?_eq_none_of_notMem (by decide) hopening
    rw [Text.cutFirst?_append_mark (by decide) hquote hcut, htail]
    simp
  | some found =>
    obtain ⟨before, after⟩ := found
    rw [Text.cutFirst?_append_of_some hcut]
    -- The parenthesis of the call is closed in the message.
    have htext := Text.append_of_cutFirst? hcut
    have hnot : ¬Brackets.round.Nests 0 after := by
      have hname : keywordCall.name.toList = "PyArg_ParseTupleAndKeywords".toList ++ ['('] := by
        decide
      rw [← htext, hname, ← List.append_assoc, List.append_assoc _ ['(']] at hmessage
      obtain ⟨-, hbehind⟩ := Brackets.settles_append_iff.mp hmessage
      obtain ⟨-, hinside⟩ := Brackets.settles_cons_iff.mp hbehind
      rw [Brackets.move_of_opens (by decide)] at hinside
      exact hinside.not_nests (Nat.succ_pos _)
    obtain ⟨inside, c, rest, rfl, hcloses, hinside⟩ := Brackets.exists_settles_of_not_nests hnot
    obtain rfl : c = ')' := decide_eq_true_iff.mp hcloses
    have hclosed : untilClosed 0 (inside ++ ')' :: rest ++ '"' :: positionalForm.tail names) =
        some inside := untilClosed_eq_some_iff.mpr ⟨_, List.append_assoc _ _ _, hinside⟩
    have hnone : ',' ∉ inside := fun hin => hcomma (by simp [← htext, hin])
    have hfew : inside.count ',' + 1 < keywordCall.namesFrom := by
      rw [List.count_eq_zero.mpr hnone]
      decide
    rw [Option.elim_some, ParsingCall.told, hclosed]
    dsimp only
    rw [ParsingCall.read_of_count_lt hfew]
    simp

/-- A call whose format is followed by something harmless tells what the format takes. -/
theorem site_of_harmless (form : CallForm) (hsuffix : IsSuffix suffix)
    (hharmless : IsHarmless suffix)
    (hnames : ∀ name ∈ names, IsIdentifier name.toList) (hformat : IsFormatText format) :
    form.call.site (form.wrapper (format ++ suffix) names) = .found (takenTypes names format) := by
  have hcomma : ',' ∉ format ++ suffix := by simp [hformat.noComma, hharmless.noComma]
  rw [form.site_of_settles hnames (hformat.settles.append hharmless.settles),
    form.read_arguments hnames hcomma, formatSection_append hformat hsuffix hharmless.noColon]

/-- What is harmless behind a format makes no difference. -/
theorem ignores_of_isHarmless {form : CallForm} (hform : form ∈ callForms)
    (hsuffix : IsSuffix suffix) (hharmless : IsHarmless suffix) : form.Ignores suffix := by
  intro names format hnames hformat
  have hsite := site_of_harmless form hsuffix hharmless hnames hformat
  obtain rfl | rfl : form = keywordForm ∨ form = positionalForm := by simpa [callForms] using hform
  · have hkeyword : keywordCall.site (keywordForm.wrapper (format ++ suffix) names) =
        .found (takenTypes names format) := hsite
    rw [parameters?, hkeyword]
  · have hpositional : positionalCall.site (positionalForm.wrapper (format ++ suffix) names) =
        .found (takenTypes names format) := hsite
    have hcomma : ',' ∉ format ++ suffix := by simp [hformat.noComma, hharmless.noComma]
    have hnone := keywordCall_not_found hnames hcomma (hformat.settles.append hharmless.settles)
    rw [parameters?_of_not_found hnone, hpositional]

/-! ## Suffixes that do harm -/

/-- Without variables nothing is taken. -/
theorem takenTypes_nil_names (format : List Char) : takenTypes [] format = [] := by
  rw [takenTypes_eq]
  rfl

/-- An empty format takes nothing. -/
theorem takenTypes_nil_format (names : List String) : takenTypes names [] = [] := by
  rw [takenTypes_eq, show items [] = [] from rfl, List.zip_nil_right]
  rfl

/-- A quote is not trimmed. -/
theorem not_isBlank_quote : ∀ c ∈ ['"'], Text.isBlank c = false :=
  List.forall_mem_singleton.mpr (by decide)

/-- The beginning of a text in quotes is not unquoted. -/
theorem exists_unquote_cons (hbegins : ['"'] <+: text) (hcount : text.count '"' ≤ 1) :
    ∃ rest, unquote text = '"' :: rest := by
  obtain ⟨rest, htrim⟩ := Text.prefix_trim hbegins not_isBlank_quote
  have hrest : '"' ∉ rest := by
    have hle := ((Text.trim_sublist text).count_le '"').trans hcount
    rw [← htrim, List.singleton_append, List.count_cons_self] at hle
    exact List.count_eq_zero.mp (by omega)
  refine ⟨rest, ?_⟩
  rw [unquote, ← htrim]
  exact if_neg fun hlast => hrest (List.mem_of_mem_getLast? hlast)

/-- The empty format. -/
theorem isFormatText_nil : IsFormatText [] :=
  ⟨nofun, nofun, nofun, nofun, Brackets.settles_nil⟩

/-- A list with the name of one variable. -/
theorem isIdentifier_of_mem_x : ∀ name ∈ ["x"], IsIdentifier name.toList := by
  simpa using ⟨by decide, by decide, by decide⟩

/-- A comma does harm. -/
theorem not_ignores_of_comma (hquote : '"' ∉ suffix) (hsettles : Brackets.round.Settles 0 suffix)
    (hcomma : ',' ∈ suffix) : ¬keywordForm.Ignores suffix := by
  intro hlaw
  obtain ⟨inside, rest, rfl, hinside⟩ := List.eq_append_cons_of_mem hcomma
  have hnames : ∀ name ∈ ([] : List String), IsIdentifier name.toList := nofun
  obtain ⟨others, hothers, hread⟩ : ∃ others, others ≠ [] ∧
      keywordForm.call.read (keywordForm.arguments (inside ++ ',' :: rest) []) =
        .found (takenTypes others (formatSection (unquote (trim ('"' :: inside))))) :=
    keywordForm.read_arguments_of_comma hnames hinside
  have hsite : keywordCall.site (keywordForm.wrapper (inside ++ ',' :: rest) []) =
      .found (takenTypes others (formatSection (unquote (trim ('"' :: inside))))) :=
    (keywordForm.site_of_settles hnames hsettles).trans hread
  have hnothing := hlaw [] [] hnames isFormatText_nil
  rw [List.nil_append, parameters?, hsite, takenTypes_nil_names] at hnothing
  -- What is taken for the format begins with the quote, which is a value of unknown type.
  have hbegins : ['"'] <+: trim ('"' :: inside) :=
    Text.prefix_trim (List.prefix_append ['"'] inside) not_isBlank_quote
  have hcount : (trim ('"' :: inside)).count '"' ≤ 1 := by
    have hnone : inside.count '"' = 0 :=
      List.count_eq_zero.mpr fun hin => hquote (List.mem_append_left _ hin)
    have hle := (Text.trim_sublist ('"' :: inside)).count_le '"'
    rwa [List.count_cons_self, hnone] at hle
  obtain ⟨words, hwords⟩ := exists_unquote_cons hbegins hcount
  obtain ⟨more, hmore⟩ : ∃ more, formatSection ('"' :: words) = '"' :: more :=
    exists_formatSection_cons (by decide) (.inl (by decide))
  rw [hwords, hmore] at hnothing
  exact takenTypes_ne_nil hothers (by decide) (by decide) (by decide) (Option.some.inj hnothing)

/-- A colon behind the semicolon of a message does harm. -/
theorem not_ignores_of_colon (hcomma : ',' ∉ suffix) (hsettles : Brackets.round.Settles 0 suffix)
    (hsemicolon : suffix.head? = some ';') (hcolon : ':' ∈ suffix) :
    ¬keywordForm.Ignores suffix := by
  intro hlaw
  obtain ⟨rest, rfl⟩ := List.head?_eq_some_iff.mp hsemicolon
  have hsite : keywordCall.site (keywordForm.wrapper (';' :: rest) ["x"]) =
      .found (takenTypes ["x"] (formatSection (';' :: rest))) :=
    (keywordForm.site_of_settles isIdentifier_of_mem_x hsettles).trans
      (keywordForm.read_arguments isIdentifier_of_mem_x hcomma)
  have hnothing := hlaw ["x"] [] isIdentifier_of_mem_x isFormatText_nil
  rw [List.nil_append, parameters?, hsite, takenTypes_nil_format] at hnothing
  -- The colon ends the format, so the semicolon belongs to it.
  have hrest : ':' ∈ rest := (List.mem_cons.mp hcolon).resolve_left (by decide)
  obtain ⟨more, hmore⟩ : ∃ more, formatSection (';' :: rest) = ';' :: more :=
    exists_formatSection_cons (by decide) (.inr hrest)
  rw [hmore] at hnothing
  exact takenTypes_ne_nil (List.cons_ne_nil _ _) (by decide) (by decide) (by decide)
    (Option.some.inj hnothing)

/-- If the parentheses of a message do not settle, then the variables are not among the arguments of
the call. -/
theorem site_of_not_settles (form : CallForm) (hsettles : ¬Brackets.round.Settles 0 suffix)
    (hnames : ∀ name ∈ names, IsIdentifier name.toList) (hformat : IsFormatText format) :
    form.call.site (form.wrapper (format ++ suffix) names) =
      (untilClosed 0 suffix).elim .unterminated fun inside =>
        form.call.read (form.front ++ ['"'] ++ format ++ inside) := by
  have htext : form.front ++ (quoted (format ++ suffix) ++ form.tail names) =
      form.front ++ ['"'] ++ format ++ (suffix ++ '"' :: form.tail names) := by
    simp [quoted]
  have hcount : ('"' :: form.tail names).countP Brackets.round.closes ≤ 1 := by
    rw [List.countP_cons_of_neg (by decide), form.countP_closes_tail hnames]
  rw [form.site_wrapper, htext, ParsingCall.told,
    untilClosed_append (form.settles_front.append hformat.settles),
    untilClosed_append_of_not_settles hsettles hcount]
  cases untilClosed 0 suffix with
  | none => rfl
  | some inside => rfl

/-- A call whose parentheses do not settle is read in the same way for all variables, or it is not
read for any format. -/
theorem found_or_not_found (form : CallForm) (hsettles : ¬Brackets.round.Settles 0 suffix)
    (hformat : IsFormatText format) :
    (∃ types, ∀ names, (∀ name ∈ names, IsIdentifier name.toList) →
      form.call.site (form.wrapper (format ++ suffix) names) = .found types) ∨
    ∀ names other, (∀ name ∈ names, IsIdentifier name.toList) → IsFormatText other →
      ∀ types, form.call.site (form.wrapper (other ++ suffix) names) ≠ .found types := by
  cases hclosed : untilClosed 0 suffix with
  | none =>
    right
    intro names other hnames hother types
    rw [site_of_not_settles form hsettles hnames hother, hclosed]
    exact nofun
  | some inside =>
    -- The number of arguments does not depend on the format, which holds no comma.
    have hcount {other : List Char} (hother : IsFormatText other) :
        (form.front ++ ['"'] ++ other ++ inside).count ',' =
          (form.front ++ ['"']).count ',' + inside.count ',' := by
      rw [List.count_append, List.count_append, List.count_eq_zero.mpr hother.noComma]
      rfl
    by_cases hfew : (form.front ++ ['"']).count ',' + inside.count ',' + 1 < form.call.namesFrom
    · right
      intro names other hnames hother types
      rw [← hcount hother] at hfew
      rw [site_of_not_settles form hsettles hnames hother, hclosed, Option.elim_some,
        ParsingCall.read_of_count_lt hfew]
      exact nofun
    · left
      rw [← hcount hformat, not_lt] at hfew
      obtain ⟨types, htypes⟩ := ParsingCall.exists_read_of_le hfew
      refine ⟨types, fun names hnames => ?_⟩
      rw [site_of_not_settles form hsettles hnames hformat, hclosed]
      exact htypes

/-- The call that parses positional arguments is looked for behind the format of the other one. -/
theorem positionalCall_site_eq (hformat : 'P' ∉ format) (suffix : List Char) (names : List String) :
    positionalCall.site (keywordForm.wrapper (format ++ suffix) names) =
      positionalCall.site (keywordForm.wrapper suffix names) := by
  have hquote : '"' ∉ positionalCall.name.toList := by decide
  obtain ⟨letters, hname⟩ : ∃ letters, positionalCall.name.toList = 'P' :: letters := ⟨_, rfl⟩
  rw [CallForm.site_of_lead hquote (by decide), CallForm.site_of_lead hquote (by decide),
    List.append_assoc, hname, Text.cutFirst?_append_of_notMem hformat, Option.elim_map]
  rfl

/-- Parentheses that do not settle do harm. -/
theorem not_ignores_of_not_settles (hsettles : ¬Brackets.round.Settles 0 suffix) :
    ¬keywordForm.Ignores suffix := by
  intro hlaw
  have hformat : IsFormatText ['i'] := ⟨by decide, by decide, by decide, by decide, by decide⟩
  have hsome : takenTypes ["x"] ['i'] ≠ [] :=
    takenTypes_ne_nil (List.cons_ne_nil _ _) (by decide) (by decide) (by decide)
  have hinteger := hlaw ["x"] ['i'] isIdentifier_of_mem_x hformat
  rcases found_or_not_found keywordForm hsettles hformat with ⟨types, hfound⟩ | hnone
  · -- The same is read without a variable and with one.
    have hempty := hlaw [] ['i'] nofun hformat
    have hwithout : keywordCall.site (keywordForm.wrapper (['i'] ++ suffix) []) = .found types :=
      hfound [] nofun
    have hwith : keywordCall.site (keywordForm.wrapper (['i'] ++ suffix) ["x"]) = .found types :=
      hfound ["x"] isIdentifier_of_mem_x
    rw [parameters?, hwithout, takenTypes_nil_names] at hempty
    rw [parameters?, hwith] at hinteger
    exact hsome ((Option.some.inj hinteger).symm.trans (Option.some.inj hempty))
  · -- The other call does not depend on the format.
    have hempty := hlaw ["x"] [] isIdentifier_of_mem_x isFormatText_nil
    rw [parameters?_of_not_found (hnone ["x"] ['i'] isIdentifier_of_mem_x hformat),
      positionalCall_site_eq (by decide)] at hinteger
    rw [parameters?_of_not_found (hnone ["x"] [] isIdentifier_of_mem_x isFormatText_nil),
      List.nil_append, hinteger, takenTypes_nil_format] at hempty
    exact hsome (Option.some.inj hempty)

/-- What may follow a format makes no difference to the parameters, in either call and for all
formats and variables, exactly if it is harmless. -/
theorem suffix_ignored_iff (hsuffix : IsSuffix suffix) :
    (∀ form ∈ callForms, form.Ignores suffix) ↔ IsHarmless suffix := by
  constructor
  · intro hlaw
    have hkeyword := hlaw keywordForm (by simp [callForms])
    have hsettles : Brackets.round.Settles 0 suffix := by
      by_contra hnot
      exact not_ignores_of_not_settles hnot hkeyword
    have hcomma : ',' ∉ suffix := fun hin =>
      not_ignores_of_comma hsuffix.noQuote hsettles hin hkeyword
    exact ⟨hcomma, hsettles, fun hsemicolon hcolon =>
      not_ignores_of_colon hcomma hsettles hsemicolon hcolon hkeyword⟩
  · exact fun hharmless form hform => ignores_of_isHarmless hform hsuffix hharmless

/-- Parentheses that are closed in a message make no difference. -/
theorem suffix_ignored_iff_of_parentheses :
    IsSuffix ";text (or none)".toList ∧
      parameters?
        "_wrap_f(self, args) \x7b PyArg_ParseTuple(args, \"s;text (or none)\", &text) \x7d".toList =
        some [⟨"text", "!string"⟩] := by
  have hsuffix : IsSuffix ";text (or none)".toList :=
    ⟨fun c hc => .inr (Option.some.inj hc).symm, by decide⟩
  have hharmless : IsHarmless ";text (or none)".toList := ⟨by decide, by decide, fun _ => by decide⟩
  have hformat : IsFormatText ['s'] := ⟨by decide, by decide, by decide, by decide, by decide⟩
  have hnames : ∀ name ∈ ["text"], IsIdentifier name.toList := by
    simpa using ⟨by decide, by decide, by decide⟩
  have hlaw := (suffix_ignored_iff hsuffix).mpr hharmless positionalForm (by simp [callForms])
  have htaken : takenTypes ["text"] ['s'] = [⟨"text", "!string"⟩] :=
    takenTypes_of_scanValues (by decide)
  exact ⟨hsuffix, (hlaw ["text"] ['s'] hnames hformat).trans (congrArg some htaken)⟩

/-- A comma in a message makes a difference, and so do a parenthesis that is not opened there and a
colon behind the semicolon. -/
theorem punctuation_spoils_parameters :
    takenTypes ["n"] ['i'] = [⟨"n", "!integer"⟩] ∧
      parameters? (positionalForm.wrapper "i;count, please".toList ["n"]) =
        some [⟨"please\"", "unspecified"⟩, ⟨"n", "!integer"⟩] ∧
      parameters? (positionalForm.wrapper "i;1) a count".toList ["n"]) = some [] ∧
      takenTypes ["n", "m"] ['i'] = [⟨"n", "!integer"⟩] ∧
      parameters? (positionalForm.wrapper "i;note: a count".toList ["n", "m"]) =
        some [⟨"n", "!integer"⟩, ⟨"m", "unspecified"⟩] := by
  have hcomma : parameters? (positionalForm.wrapper "i;count, please".toList ["n"]) =
      some (takenTypes ["please\"", "n"] "\"i".toList) := rfl
  have hclosing : parameters? (positionalForm.wrapper "i;1) a count".toList ["n"]) =
      some (takenTypes [] "\"i".toList) := rfl
  have hcolon : parameters? (positionalForm.wrapper "i;note: a count".toList ["n", "m"]) =
      some (takenTypes ["n", "m"] "i;note".toList) := rfl
  rw [hcomma, hclosing, hcolon]
  exact ⟨takenTypes_of_scanValues (by decide),
    congrArg some (takenTypes_of_scanValues (by decide)),
    congrArg some (takenTypes_of_scanValues (by decide)),
    takenTypes_of_scanValues (by decide),
    congrArg some (takenTypes_of_scanValues (by decide))⟩

end Stubgen.Wrapper
