import Stubgen.Proofs.Defs.Lexemes
import Stubgen.Text.Search

/-!
# How lexemes partition a text

The lexemes of a text and the gaps between them make up the whole text. This file states what a
gap is and how every token is written, without reference to a scan, and proves that the scan of a
text finds the one way to part it into gaps and written tokens.
-/

namespace Stubgen.Defs

/-- The characters of blank space: space, tab, carriage return, line feed and form feed. -/
def gapCharacters : List Char :=
  [' ', '\t', '\r', '\n', '\x0c']

/-- The characters that no atom holds. -/
def delimiters : List Char :=
  gapCharacters ++ ['(', ')', '\'', '"', ';']

/-- Blank space and comments that stand before the rest of a text. A comment runs to the end of
its line: what comes after it begins with a line feed, or the text is over. -/
inductive Separates : List Char → List Char → Prop where
  | nil {rest : List Char} : Separates [] rest
  | blank {c : Char} {gap rest : List Char} (hblank : c ∈ gapCharacters)
      (hgap : Separates gap rest) : Separates (c :: gap) rest
  | comment {line gap rest : List Char} (hline : '\n' ∉ line)
      (hend : ∀ c ∈ (gap ++ rest).head?, c = '\n') (hgap : Separates gap rest) :
      Separates (';' :: line ++ gap) rest

/-- The inside of a string, as it is written, and the text that it stands for. A backslash and any
character but the line feed belong together. -/
inductive Escaped : List Char → List Char → Prop where
  | nil : Escaped [] []
  | plain {c : Char} {body text : List Char} (hquote : c ≠ '"') (hbackslash : c ≠ '\\')
      (hbody : Escaped body text) : Escaped (c :: body) (c :: text)
  | lineFeed {body text : List Char} (hbody : Escaped body text) :
      Escaped ('\\' :: 'n' :: body) ('\n' :: text)
  | tab {body text : List Char} (hbody : Escaped body text) :
      Escaped ('\\' :: 't' :: body) ('\t' :: text)
  | other {c : Char} {body text : List Char} (hlineFeed : c ≠ '\n') (hn : c ≠ 'n') (ht : c ≠ 't')
      (hbody : Escaped body text) : Escaped ('\\' :: c :: body) (c :: text)

/-- A string breaks off here: the text is over, apart from a backslash that may stand at its end,
or a backslash stands before a line feed. -/
def BreaksOff (rest : List Char) : Prop :=
  rest = [] ∨ ∃ more, rest = '\\' :: more ∧ ∀ c ∈ more.head?, c = '\n'

/-- How a token is written before the rest of a text. An atom is as long as it can be, and so is a
string that is not completed. -/
inductive Written : Token → List Char → List Char → Prop where
  | opening {rest : List Char} : Written .opening ['('] rest
  | closing {rest : List Char} : Written .closing [')'] rest
  | quote {rest : List Char} : Written .quote ['\''] rest
  | str {body text rest : List Char} (hbody : Escaped body text) :
      Written (.str (String.ofList text)) ('"' :: body ++ ['"']) rest
  | atom {piece rest : List Char} (hpiece : piece ≠ []) (hinside : ∀ c ∈ piece, c ∉ delimiters)
      (hend : ∀ c ∈ rest.head?, c ∈ delimiters) : Written (.atom (String.ofList piece)) piece rest
  | invalid {body text rest : List Char} (hbody : Escaped body text) (hend : BreaksOff rest) :
      Written (.invalid (String.ofList ('"' :: body))) ('"' :: body) rest

/-- The text consists of a gap and a written token for each lexeme, which begins and ends where
they do, and of one more gap at the end. -/
inductive Partitioned : Position → List Char → List Lexeme → Prop where
  | done {position : Position} {gap : List Char} (hgap : Separates gap []) :
      Partitioned position gap []
  | lexeme {position : Position} {gap piece rest : List Char} {lexeme : Lexeme}
      {lexemes : List Lexeme} (hgap : Separates gap (piece ++ rest))
      (hstart : lexeme.start = position.after gap) (hpiece : Written lexeme.token piece rest)
      (hstop : lexeme.stop = lexeme.start.after piece)
      (hrest : Partitioned lexeme.stop rest lexemes) :
      Partitioned position (gap ++ (piece ++ rest)) (lexeme :: lexemes)

/-- The place after no text is the place itself. -/
@[simp] theorem Position.after_nil (position : Position) : position.after [] = position := by
  simp [Position.after]

/-- A scan knows the characters of blank space. -/
theorem isGap_iff {c : Char} : isGap c = true ↔ c ∈ gapCharacters := by
  simp [isGap, gapCharacters, or_assoc]

/-- A scan knows the characters that no atom holds. -/
theorem isDelimiter_iff {c : Char} : isDelimiter c = true ↔ c ∈ delimiters := by
  simp [isDelimiter, isGap, delimiters, gapCharacters, or_assoc]

/-! ## Gaps -/

/-- A scan passes over a gap. -/
theorem lexFrom_of_separates {gap rest : List Char} (h : Separates gap rest)
    (position : Position) :
    lexFrom position (gap ++ rest) = lexFrom (position.after gap) rest := by
  induction h generalizing position with
  | nil => rw [Position.after_nil, List.nil_append]
  | @blank c gap rest hblank _ ih =>
    rw [List.cons_append, lexFrom, if_pos (isGap_iff.mpr hblank), ih, Position.after_after]
    rfl
  | @comment line gap rest hline hend _ ih =>
    have hinside : ∀ c ∈ line, decide (c ≠ '\n') = true := by
      intro c hc
      simpa using ne_of_mem_of_not_mem hc hline
    have hafter : ∀ c ∈ (gap ++ rest).head?, decide (c ≠ '\n') = false := by
      intro c hc
      simpa using hend c hc
    rw [List.cons_append, List.cons_append, List.append_assoc, lexFrom, if_neg (by decide),
      if_pos rfl]
    simp only [Text.takeWhile_append_exact hinside hafter,
      Text.dropWhile_append_exact hinside hafter]
    rw [ih, Position.after_after]
    rfl

/-! ## Strings -/

/-- The longest body goes past any character but the double quote and the backslash. -/
theorem stringBody_cons {c : Char} (hquote : c ≠ '"') (hbackslash : c ≠ '\\') (cs : List Char) :
    stringBody (c :: cs) = c :: stringBody cs := by
  cases cs with
  | nil => simp [stringBody, hquote, hbackslash]
  | cons d cs => simp [stringBody, hquote, hbackslash]

/-- The longest body goes past an escaped character. -/
theorem stringBody_backslash {c : Char} (hlineFeed : c ≠ '\n') (cs : List Char) :
    stringBody ('\\' :: c :: cs) = '\\' :: c :: stringBody cs := by
  simp [stringBody, hlineFeed]

/-- A character other than the backslash stands for itself. -/
theorem unescape_cons {c : Char} (hbackslash : c ≠ '\\') (cs : List Char) :
    unescape (c :: cs) = c :: unescape cs := by
  cases cs with
  | nil => simp [unescape]
  | cons d cs => simp [unescape, hbackslash]

/-- What a written string stands for is found by resolving its escapes. -/
theorem Escaped.unescape_eq {body text : List Char} (h : Escaped body text) :
    unescape body = text := by
  induction h with
  | nil => rfl
  | plain _ hbackslash _ ih => rw [unescape_cons hbackslash, ih]
  | lineFeed _ ih => simp [unescape, ih]
  | tab _ ih => simp [unescape, ih]
  | other _ hn ht _ ih => simp [unescape, hn, ht, ih]

/-- A string ends where a double quote stands or where it breaks off. -/
def EndsString (rest : List Char) : Prop :=
  rest.head? = some '"' ∨ BreaksOff rest

/-- Where a string ends, no body goes on. -/
theorem EndsString.stringBody_eq_nil {rest : List Char} (h : EndsString rest) :
    stringBody rest = [] := by
  rcases h with hquote | rfl | ⟨more, rfl, hmore⟩
  · obtain ⟨more, rfl⟩ := List.head?_eq_some_iff.mp hquote
    cases more <;> simp [stringBody]
  · rfl
  · cases more with
    | nil => simp [stringBody]
    | cons c more => simp [stringBody, hmore c rfl]

/-- The longest body of a string is the inside that is written before its end. -/
theorem Escaped.stringBody_append {body text : List Char} (h : Escaped body text)
    {rest : List Char} (hrest : EndsString rest) : stringBody (body ++ rest) = body := by
  induction h with
  | nil => exact hrest.stringBody_eq_nil
  | plain hquote hbackslash _ ih =>
    rw [List.cons_append, stringBody_cons hquote hbackslash, ih]
  | lineFeed _ ih => rw [List.cons_append, List.cons_append, stringBody_backslash (by decide), ih]
  | tab _ ih => rw [List.cons_append, List.cons_append, stringBody_backslash (by decide), ih]
  | other hlineFeed _ _ _ ih =>
    rw [List.cons_append, List.cons_append, stringBody_backslash hlineFeed, ih]

/-- The longest body of a string is written as the inside of one, and it ends where a string
does. -/
theorem escaped_stringBody (text : List Char) :
    Escaped (stringBody text) (unescape (stringBody text)) ∧
      EndsString (text.drop (stringBody text).length) := by
  fun_induction stringBody text with
  | case1 => exact ⟨.nil, .inr (.inl rfl)⟩
  | case2 c h =>
    refine ⟨.nil, ?_⟩
    rcases h with rfl | rfl
    · exact .inl rfl
    · exact .inr (.inr ⟨[], rfl, by simp⟩)
  | case3 c h =>
    obtain ⟨hquote, hbackslash⟩ := not_or.mp h
    exact ⟨.plain hquote hbackslash .nil, .inr (.inl rfl)⟩
  | case4 => exact ⟨.nil, .inl rfl⟩
  | case5 cs => exact ⟨.nil, .inr (.inr ⟨'\n' :: cs, rfl, by simp⟩)⟩
  | case6 d cs hlineFeed _ ih =>
    obtain ⟨hbody, hend⟩ := ih
    refine ⟨?_, by simpa using hend⟩
    by_cases hn : d = 'n'
    · subst hn
      simpa [unescape] using hbody.lineFeed
    · by_cases ht : d = 't'
      · subst ht
        simpa [unescape] using hbody.tab
      · simpa [unescape, hn, ht] using hbody.other hlineFeed hn ht
  | case7 c d cs hquote hbackslash ih =>
    obtain ⟨hbody, hend⟩ := ih
    refine ⟨?_, by simpa using hend⟩
    rw [unescape_cons hbackslash]
    exact hbody.plain hquote hbackslash

/-! ## Tokens -/

/-- A written token is what a scan finds where it begins. -/
theorem Written.exists_tokenAt {token : Token} {piece rest : List Char}
    (h : Written token piece rest) :
    ∃ c cs, piece = c :: cs ∧ isGap c = false ∧ c ≠ ';' ∧
      tokenAt c (cs ++ rest) = (token, piece) := by
  cases h with
  | opening => exact ⟨_, _, rfl, rfl, by decide, rfl⟩
  | closing => exact ⟨_, _, rfl, rfl, by decide, rfl⟩
  | quote => exact ⟨_, _, rfl, rfl, by decide, rfl⟩
  | @str body text _ hbody =>
    have hlongest : stringBody (body ++ '"' :: rest) = body := hbody.stringBody_append (.inl rfl)
    refine ⟨_, _, rfl, rfl, by decide, ?_⟩
    simp [tokenAt, hlongest, hbody.unescape_eq]
  | @atom _ _ hpiece hinside hend =>
    obtain ⟨c, cs, rfl⟩ := List.exists_cons_of_ne_nil hpiece
    have hc := hinside c List.mem_cons_self
    have hcs : ∀ d ∈ cs, (! isDelimiter d) = true := by
      intro d hd
      simpa [← isDelimiter_iff] using hinside d (List.mem_cons_of_mem _ hd)
    have hrest : ∀ d ∈ rest.head?, (! isDelimiter d) = false := by
      intro d hd
      simpa [← isDelimiter_iff] using hend d hd
    simp only [delimiters, gapCharacters, List.cons_append, List.nil_append, List.mem_cons,
      List.not_mem_nil, or_false, not_or] at hc
    refine ⟨c, cs, rfl, by simp [isGap, hc], by simp [hc], ?_⟩
    simp [tokenAt, hc, Text.takeWhile_append_exact hcs hrest]
  | @invalid body text _ hbody hend =>
    have hlongest := hbody.stringBody_append (.inr hend)
    refine ⟨_, _, rfl, rfl, by decide, ?_⟩
    simp only [tokenAt, hlongest, List.drop_left]
    rcases hend with rfl | ⟨more, rfl, _⟩
    · simp
    · simp

/-- What a scan finds outside gaps is a written token. -/
theorem written_tokenAt {c : Char} {cs : List Char} (hgap : isGap c = false) (hcomment : c ≠ ';') :
    Written (tokenAt c cs).1 (tokenAt c cs).2 (cs.drop ((tokenAt c cs).2.length - 1)) := by
  unfold tokenAt
  split
  · next h => exact h ▸ .opening
  split
  · next h => exact h ▸ .closing
  split
  · next h => exact h ▸ .quote
  split
  · next h =>
    subst h
    obtain ⟨hbody, hend⟩ := escaped_stringBody cs
    dsimp only
    split
    · exact .str hbody
    · next hopen =>
      refine .invalid hbody ?_
      rcases hend with hquote | hend
      · obtain ⟨more, hmore⟩ := List.head?_eq_some_iff.mp hquote
        exact (hopen more hmore).elim
      · simpa using hend
  · next hopening hclosing hquote hstring =>
    have hdelimiter : isDelimiter c = false := by
      simp [isDelimiter, hgap, hcomment, hopening, hclosing, hquote, hstring]
    refine .atom (List.cons_ne_nil _ _) ?_ ?_
    · intro d hd
      rw [← isDelimiter_iff]
      rcases List.mem_cons.mp hd with rfl | hd
      · simp [hdelimiter]
      · simpa using List.all_eq_true.mp List.all_takeWhile d hd
    · intro d hd
      have hhead := List.head?_dropWhile_not (! isDelimiter ·) cs
      have hafter : cs.drop (cs.takeWhile (! isDelimiter ·)).length =
          cs.dropWhile (! isDelimiter ·) := by
        have hdrop : (cs.takeWhile (! isDelimiter ·) ++ cs.dropWhile (! isDelimiter ·)).drop
            (cs.takeWhile (! isDelimiter ·)).length = cs.dropWhile (! isDelimiter ·) :=
          List.drop_left
        rwa [List.takeWhile_append_dropWhile] at hdrop
      dsimp only at hd
      rw [List.length_cons, Nat.add_sub_cancel, hafter] at hd
      rw [Option.mem_def.mp hd] at hhead
      simpa [← isDelimiter_iff] using hhead

/-- A scan finds a written token. -/
theorem lexFrom_of_written {token : Token} {piece rest : List Char} (h : Written token piece rest)
    (position : Position) :
    lexFrom position (piece ++ rest) =
      ⟨token, position, position.after piece⟩ :: lexFrom (position.after piece) rest := by
  obtain ⟨c, cs, rfl, hgap, hcomment, htoken⟩ := h.exists_tokenAt
  rw [List.cons_append, lexFrom]
  simp [hgap, hcomment, htoken]

/-! ## The partition -/

/-- A gap in front belongs to the first gap of a partition. -/
theorem Partitioned.of_gap {position : Position} {gap text : List Char} {lexemes : List Lexeme}
    (hgap : ∀ more rest, Separates more rest → more ++ rest = text → Separates (gap ++ more) rest)
    (h : Partitioned (position.after gap) text lexemes) :
    Partitioned position (gap ++ text) lexemes := by
  cases h with
  | done hmore => exact .done (hgap text [] hmore (List.append_nil text))
  | @lexeme _ more piece rest lexeme lexemes hmore hstart hpiece hstop hrest =>
    rw [← List.append_assoc]
    refine .lexeme (hgap more _ hmore rfl) ?_ hpiece hstop hrest
    rw [hstart, Position.after_after]

/-- A scan partitions the text. -/
theorem partitioned_lexFrom (position : Position) (text : List Char) :
    Partitioned position text (lexFrom position text) := by
  fun_induction lexFrom position text with
  | case1 position => exact .done .nil
  | case2 position c cs hgap ih =>
    have hblank (more rest : List Char) (hmore : Separates more rest) (_ : more ++ rest = cs) :
        Separates ([c] ++ more) rest :=
      hmore.blank (isGap_iff.mp hgap)
    exact .of_gap hblank ih
  | case3 position cs hgap comment ih =>
    have hsplit : comment ++ cs.dropWhile (· ≠ '\n') = ';' :: cs := by
      simp [comment]
    rw [← hsplit]
    refine .of_gap ?_ ih
    intro more rest hmore htext
    refine hmore.comment ?_ ?_
    · intro hmem
      simpa using List.all_eq_true.mp List.all_takeWhile _ hmem
    · intro c hc
      have hhead := List.head?_dropWhile_not (· ≠ '\n') cs
      rw [← htext, Option.mem_def.mp hc] at hhead
      simpa using hhead
  | case4 position c cs hgap hcomment token piece htoken stop ih =>
    have hsplit := tokenAt_append c cs
    have hwritten : Written (tokenAt c cs).1 (tokenAt c cs).2
        (cs.drop ((tokenAt c cs).2.length - 1)) :=
      written_tokenAt (by simpa using hgap) hcomment
    rw [htoken] at hsplit hwritten
    rw [← hsplit]
    exact .lexeme .nil (position.after_nil).symm hwritten rfl ih

/-- A partition of the text is what the scan finds. -/
theorem Partitioned.lexFrom_eq {position : Position} {text : List Char} {lexemes : List Lexeme}
    (h : Partitioned position text lexemes) : lexFrom position text = lexemes := by
  induction h with
  | @done position gap hgap =>
    have hscan := lexFrom_of_separates hgap position
    rwa [List.append_nil, lexFrom] at hscan
  | @lexeme position gap piece rest lexeme lexemes hgap hstart hpiece hstop _ ih =>
    rw [lexFrom_of_separates hgap, ← hstart, lexFrom_of_written hpiece, ← hstop, ih]

/-- Lexemes partition a text exactly if the scan finds them. -/
theorem lexFrom_eq_iff {position : Position} {text : List Char} {lexemes : List Lexeme} :
    lexFrom position text = lexemes ↔ Partitioned position text lexemes :=
  ⟨fun h => h ▸ partitioned_lexFrom position text, Partitioned.lexFrom_eq⟩

namespace Partitioned

variable {position : Position} {text : List Char} {lexemes : List Lexeme}

/-- A lexeme of a partition is written where it stands, and the lexemes after it partition the
rest of the text. -/
theorem exists_written (h : Partitioned position text lexemes) {before : List Lexeme}
    {lexeme : Lexeme} {after : List Lexeme} (hsplit : lexemes = before ++ lexeme :: after) :
    ∃ passed piece rest, text = passed ++ (piece ++ rest) ∧
      lexeme.start = position.after passed ∧ lexeme.stop = lexeme.start.after piece ∧
      Written lexeme.token piece rest ∧ Partitioned lexeme.stop rest after := by
  induction h generalizing before with
  | done _ => simp at hsplit
  | @lexeme position gap piece rest first lexemes hgap hstart hpiece hstop hrest ih =>
    cases before with
    | nil =>
      obtain ⟨rfl, rfl⟩ := List.cons.inj hsplit
      exact ⟨gap, piece, rest, rfl, hstart, hstop, hpiece, hrest⟩
    | cons other before =>
      obtain ⟨rfl, hafter⟩ := List.cons.inj hsplit
      obtain ⟨passed, piece', rest', rfl, hstart', hstop', hpiece', hrest'⟩ := ih hafter
      refine ⟨gap ++ (piece ++ passed), piece', rest', by simp, ?_, hstop', hpiece', hrest'⟩
      rw [hstart', hstop, hstart, Position.after_after, Position.after_after]

/-- The lexemes of a partition do not begin before it. -/
theorem offset_le (h : Partitioned position text lexemes) :
    ∀ lexeme ∈ lexemes, position.offset ≤ lexeme.start.offset := by
  intro lexeme hmem
  obtain ⟨before, after, hsplit⟩ := List.append_of_mem hmem
  obtain ⟨passed, _, _, _, hstart, _⟩ := h.exists_written hsplit
  simp [hstart, Position.after]

/-- The lexemes of a partition stand in order and do not overlap. -/
theorem pairwise (h : Partitioned position text lexemes) :
    lexemes.Pairwise fun lexeme next => lexeme.stop.offset ≤ next.start.offset := by
  induction h with
  | done _ => exact .nil
  | lexeme _ _ _ _ hrest ih => exact List.pairwise_cons.mpr ⟨hrest.offset_le, ih⟩

end Partitioned

/-- A written token has at least one character. -/
theorem Written.ne_nil {token : Token} {piece rest : List Char} (h : Written token piece rest) :
    piece ≠ [] := by
  obtain ⟨c, cs, rfl, _⟩ := h.exists_tokenAt
  exact List.cons_ne_nil c cs

/-- The lexemes of a text are those of its one partition into gaps and written tokens. They stand
in order and do not overlap. Each of them, also an invalid one, is written between two characters
of the text, and the scan goes on at the place where it ends. -/
theorem lex_partitions (source : String) :
    (∀ lexemes, lex source = lexemes ↔ Partitioned .start source.toList lexemes) ∧
    (lex source).Pairwise (fun lexeme next => lexeme.stop.offset ≤ next.start.offset) ∧
    ∀ before lexeme after, lex source = before ++ lexeme :: after →
      ∃ passed piece rest, source.toList = passed ++ (piece ++ rest) ∧
        Written lexeme.token piece rest ∧
        lexeme.start.offset = Text.byteLength passed ∧
        lexeme.stop.offset = Text.byteLength (passed ++ piece) ∧
        lexeme.start.offset < lexeme.stop.offset ∧
        lexeme.stop.offset ≤ Text.byteLength source.toList ∧
        after = lexFrom lexeme.stop rest := by
  have hpartition := partitioned_lexFrom .start source.toList
  refine ⟨fun _ => lexFrom_eq_iff, hpartition.pairwise, ?_⟩
  intro before lexeme after hsplit
  obtain ⟨passed, piece, rest, htext, hstart, hstop, hpiece, hrest⟩ :=
    hpartition.exists_written hsplit
  have hstartOffset : lexeme.start.offset = Text.byteLength passed := by
    simp [hstart, Position.after, Position.start]
  have hstopOffset : lexeme.stop.offset = Text.byteLength (passed ++ piece) := by
    rw [hstop, Position.after, hstartOffset, Text.byteLength_append]
  refine ⟨passed, piece, rest, htext, hpiece, hstartOffset, hstopOffset, ?_, ?_,
    hrest.lexFrom_eq.symm⟩
  · obtain ⟨c, cs, rfl⟩ := List.exists_cons_of_ne_nil hpiece.ne_nil
    have hpositive := c.utf8Size_pos
    rw [hstartOffset, hstopOffset, Text.byteLength_append, Text.byteLength_cons]
    omega
  · rw [hstopOffset, htext, ← List.append_assoc, Text.byteLength_append (passed ++ piece)]
    omega

end Stubgen.Defs
