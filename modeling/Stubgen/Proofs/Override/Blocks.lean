import Mathlib.Data.List.Forall2
import Stubgen.Override.Basic
import Stubgen.Proofs.Entries
import Stubgen.Proofs.Text.Words

/-!
# Override texts block by block

A separator line ends a block wherever it stands, so a text with a separator line in it has the
blocks of what stands before the line and then those of what stands behind it. What a block holds is
read without looking at the others, and a wrapper that is written as a block is read back as it was.
-/

namespace Stubgen

open Text (isBlank trim trimStart trimEnd words)

namespace OverrideBlock

variable {text line first head piece padded : List Char} {lines later more : List (List Char)}

/-! ## Lines -/

/-- The lines of a text make up the text. -/
theorem flatten_linesOf (text : List Char) : (linesOf text).flatten = text := by
  induction text with
  | nil => rfl
  | cons c text ih =>
    rw [linesOf]
    split
    · rw [List.flatten_cons, ih, List.singleton_append]
    · cases hlines : linesOf text with
      | nil => rw [← ih, hlines, List.flatten_nil, List.flatten_singleton]
      | cons line lines => rw [← ih, hlines, List.flatten_cons, List.flatten_cons, List.cons_append]

/-- Only the empty text has no line. -/
theorem linesOf_ne_nil (h : text ≠ []) : linesOf text ≠ [] := fun hlines =>
  h (by rw [← flatten_linesOf text, hlines, List.flatten_nil])

/-- A line ends at the line feed behind it. -/
theorem linesOf_append_newline (h : '\n' ∉ line) (rest : List Char) :
    linesOf (line ++ '\n' :: rest) = (line ++ ['\n']) :: linesOf rest := by
  induction line with
  | nil => rw [List.nil_append, linesOf, if_pos rfl, List.nil_append]
  | cons c line ih =>
    obtain ⟨hc, hline⟩ := not_or.mp (List.mem_cons.not.mp h)
    rw [List.cons_append, linesOf, if_neg (Ne.symm hc), ih hline]
    rfl

/-- The lines behind a line feed are those of the text that follows it. -/
theorem linesOf_append (front rest : List Char) :
    linesOf (front ++ '\n' :: rest) = linesOf (front ++ ['\n']) ++ linesOf rest := by
  induction front with
  | nil => exact linesOf_append_newline List.not_mem_nil rest
  | cons c front ih =>
    rw [List.cons_append, linesOf, ih, List.cons_append, linesOf]
    split
    · rfl
    · obtain ⟨line, lines, hlines⟩ :=
        List.exists_cons_of_ne_nil (linesOf_ne_nil (List.concat_ne_nil '\n' front))
      rw [hlines]
      rfl

/-- A line feed at the end of a text is a line of its own, or it ends the last line. -/
theorem linesOf_concat (text : List Char) :
    linesOf (text ++ ['\n']) = linesOf text ++ [['\n']] ∨
      ∃ lines line, linesOf text = lines ++ [line] ∧
        linesOf (text ++ ['\n']) = lines ++ [line ++ ['\n']] := by
  induction text with
  | nil => exact .inl rfl
  | cons c text ih =>
    rw [List.cons_append, linesOf, linesOf]
    split
    · rcases ih with hown | ⟨lines, line, hlines, hended⟩
      · exact .inl (by rw [hown, List.cons_append])
      · exact .inr ⟨[c] :: lines, line, by rw [hlines, List.cons_append],
          by rw [hended, List.cons_append]⟩
    · rcases ih with hown | ⟨lines, line, hlines, hended⟩
      · rw [hown]
        cases linesOf text with
        | nil => exact .inr ⟨[], [c], rfl, rfl⟩
        | cons line lines => exact .inl rfl
      · rw [hlines, hended]
        cases lines with
        | nil => exact .inr ⟨[], c :: line, rfl, rfl⟩
        | cons first lines => exact .inr ⟨(c :: first) :: lines, line, rfl, rfl⟩

/-- The first line stands at the beginning of the text, and every other one behind a line feed. -/
theorem infix_of_linesOf (h : linesOf text = first :: later) :
    first <+: text ∧ ∀ line ∈ later, '\n' :: line <:+: text := by
  induction text generalizing first later with
  | nil => contradiction
  | cons c text ih =>
    have hwithin {line : List Char} (hline : '\n' :: line <:+: text) :
        '\n' :: line <:+: c :: text := hline.trans (List.suffix_cons c text).isInfix
    rw [linesOf] at h
    split at h
    · next hc =>
      obtain ⟨rfl, rfl⟩ := List.cons.inj h
      refine ⟨List.prefix_append [c] text, fun line hline => ?_⟩
      cases hlines : linesOf text with
      | nil => rw [hlines] at hline; contradiction
      | cons second others =>
        obtain ⟨hsecond, hothers⟩ := ih hlines
        rw [hlines] at hline
        rcases List.mem_cons.mp hline with rfl | hline
        · rw [← hc]
          exact (List.prefix_cons_inj c |>.mpr hsecond).isInfix
        · exact hwithin (hothers line hline)
    · cases hlines : linesOf text with
      | nil =>
        rw [hlines] at h
        obtain ⟨rfl, rfl⟩ := List.cons.inj h
        exact ⟨List.prefix_append [c] text, fun line hline => absurd hline List.not_mem_nil⟩
      | cons second others =>
        rw [hlines] at h
        obtain ⟨rfl, rfl⟩ := List.cons.inj h
        obtain ⟨hsecond, hothers⟩ := ih hlines
        exact ⟨(List.prefix_cons_inj c).mpr hsecond, fun line hline => hwithin (hothers line hline)⟩

/-! ## Pieces -/

/-- Whether a line is a separator does not depend on the line feed at its end. -/
theorem isSeparator_concat (line : List Char) :
    isSeparator (line ++ ['\n']) = isSeparator line := by
  rcases line with _ | ⟨c, _ | ⟨d, line⟩⟩
  · rfl
  · simp [isSeparator, List.isPrefixOf]
  · rfl

/-- There is at least one piece between separator lines. -/
theorem pieces_ne_nil (lines : List (List Char)) : pieces lines ≠ [] := by
  cases lines with
  | nil => exact List.cons_ne_nil _ _
  | cons line lines =>
    rw [pieces]
    split
    · exact List.cons_ne_nil _ _
    · split
      · exact List.cons_ne_nil _ _
      · exact List.cons_ne_nil _ _

/-- A separator line at the beginning ends an empty piece. -/
theorem pieces_cons_of_separator (h : isSeparator line = true) (lines : List (List Char)) :
    pieces (line :: lines) = [] :: pieces lines := by
  rw [pieces, if_pos h]

/-- A separator line ends a piece. -/
theorem pieces_append (h : isSeparator line = true) (lines more : List (List Char)) :
    pieces (lines ++ line :: more) = pieces lines ++ pieces more := by
  induction lines with
  | nil => exact pieces_cons_of_separator h more
  | cons first lines ih =>
    rw [List.cons_append, pieces, pieces, ih]
    split
    · rfl
    · obtain ⟨piece, others, hpieces⟩ := List.exists_cons_of_ne_nil (pieces_ne_nil lines)
      rw [hpieces]
      rfl

/-- Lines between which there is no separator line are one piece. -/
theorem pieces_of_plain (h : ∀ line ∈ lines, isSeparator line = false) :
    pieces lines = [lines.flatten] := by
  induction lines with
  | nil => rfl
  | cons line lines ih =>
    obtain ⟨hline, hlines⟩ := List.forall_mem_cons.mp h
    rw [pieces, if_neg (by simp [hline]), ih hlines]
    rfl

/-- A text with blank characters behind it. -/
def PaddedTo (piece padded : List Char) : Prop :=
  ∃ blanks, padded = piece ++ blanks ∧ ∀ c ∈ blanks, isBlank c = true

theorem PaddedTo.refl (piece : List Char) : PaddedTo piece piece :=
  ⟨[], (List.append_nil piece).symm, fun _ hmem => absurd hmem List.not_mem_nil⟩

/-- What is padded stays so behind another text. -/
theorem PaddedTo.append_left (h : PaddedTo piece padded) (front : List Char) :
    PaddedTo (front ++ piece) (front ++ padded) := by
  obtain ⟨blanks, rfl, hblanks⟩ := h
  exact ⟨blanks, (List.append_assoc _ _ _).symm, hblanks⟩

/-- Lines whose pieces are the same up to blanks behind them have such pieces also behind other
lines. -/
theorem pieces_append_padded (h : List.Forall₂ PaddedTo (pieces later) (pieces more))
    (lines : List (List Char)) :
    List.Forall₂ PaddedTo (pieces (lines ++ later)) (pieces (lines ++ more)) := by
  induction lines with
  | nil => exact h
  | cons line lines ih =>
    rw [List.cons_append, List.cons_append, pieces, pieces]
    split
    · exact .cons (.refl []) ih
    · generalize pieces (lines ++ later) = before, pieces (lines ++ more) = after at ih
      cases ih with
      | nil => exact .cons (.refl line) .nil
      | cons hfirst hothers => exact .cons (hfirst.append_left line) hothers

/-- A line feed at the end of a text is one at the end of a piece, or is not in a piece at all. -/
theorem pieces_concat_newline (text : List Char) :
    List.Forall₂ PaddedTo (pieces (linesOf text)) (pieces (linesOf (text ++ ['\n']))) := by
  have hfeed : ∀ c ∈ ['\n'], isBlank c = true := List.forall_mem_singleton.mpr (by decide)
  rcases linesOf_concat text with hown | ⟨lines, line, hlines, hended⟩
  · have hempty : List.Forall₂ PaddedTo (pieces []) (pieces [['\n']]) :=
      .cons ⟨['\n'], rfl, hfeed⟩ .nil
    simpa only [hown, List.append_nil] using pieces_append_padded hempty (linesOf text)
  · rw [hlines, hended]
    refine pieces_append_padded ?_ lines
    by_cases hline : isSeparator line = true
    · rw [pieces_cons_of_separator hline,
        pieces_cons_of_separator ((isSeparator_concat line).trans hline)]
      exact .cons (.refl []) (.cons (.refl []) .nil)
    · have hplain : pieces [line] = [line] ∧ pieces [line ++ ['\n']] = [line ++ ['\n']] := by
        simp [pieces, isSeparator_concat, hline]
      rw [hplain.1, hplain.2]
      exact .cons ⟨['\n'], rfl, hfeed⟩ .nil

/-! ## Blocks -/

/-- The words of what stands on the two sides of a blank character. -/
theorem wordsOf_append_blank {c : Char} (hc : isBlank c = true) (front rest : List Char) :
    wordsOf (front ++ c :: rest) = wordsOf front ++ wordsOf rest := by
  rw [wordsOf, Text.words_append_blank hc, List.map_append, wordsOf, wordsOf]

/-- A text without blank characters is its only word. -/
theorem wordsOf_of_plain (hsome : text ≠ []) (h : ∀ c ∈ text, isBlank c = false) :
    wordsOf text = [String.ofList text] := by
  rw [wordsOf, Text.words_of_plain hsome h, List.map_singleton]

/-- Blanks behind a piece do not change its block. -/
theorem ofPiece_padded (h : PaddedTo piece padded) : ofPiece piece = ofPiece padded := by
  obtain ⟨blanks, rfl, hblanks⟩ := h
  rw [ofPiece, ofPiece, Text.trim_append_of_blank piece hblanks]

/-- A text with a separator line in it has the blocks of what stands before the line and of what
stands behind it. -/
theorem ofText_append (front rest : String) :
    ofText (front ++ "\n%%\n" ++ rest) = ofText front ++ ofText rest := by
  have hlines : linesOf (front ++ "\n%%\n" ++ rest).toList =
      linesOf (front.toList ++ ['\n']) ++ ['%', '%', '\n'] :: linesOf rest.toList := by
    have hline : '\n' ∉ ['%', '%'] := by decide
    rw [String.toList_append, String.toList_append, List.append_assoc]
    refine (linesOf_append front.toList ('%' :: '%' :: '\n' :: rest.toList)).trans ?_
    exact congrArg _ (linesOf_append_newline hline rest.toList)
  have hfront : (pieces (linesOf front.toList)).map ofPiece =
      (pieces (linesOf (front.toList ++ ['\n']))).map ofPiece := by
    rw [← List.forall₂_eq_eq_eq, List.forall₂_map_left_iff, List.forall₂_map_right_iff]
    exact (pieces_concat_newline front.toList).imp fun _ _ => ofPiece_padded
  rw [ofText, hlines, pieces_append rfl, List.map_append, ← hfront, ofText, ofText]

/-- Texts with separator lines between them have the blocks of all of them, in order. -/
theorem ofText_intercalate {texts : List String} (h : texts ≠ []) :
    ofText ("\n%%\n".intercalate texts) = texts.flatMap ofText := by
  induction texts with
  | nil => contradiction
  | cons text texts ih =>
    cases texts with
    | nil => simp
    | cons next texts =>
      rw [String.intercalate_cons_cons, ofText_append, ih (List.cons_ne_nil _ _)]
      rfl

/-- A text that neither begins with a separator nor has one behind a line feed. -/
structure LacksSeparator (text : List Char) : Prop where
  first : ¬['%', '%'] <+: text
  later : ¬['\n', '%', '%'] <:+: text

/-- No line of such a text is a separator line. -/
theorem LacksSeparator.plain (h : LacksSeparator text) :
    ∀ line ∈ linesOf text, isSeparator line = false := by
  cases hlines : linesOf text with
  | nil => exact fun line hline => absurd hline List.not_mem_nil
  | cons first later =>
    obtain ⟨hfirst, hlater⟩ := infix_of_linesOf hlines
    refine List.forall_mem_cons.mpr ⟨?_, fun line hline => ?_⟩
    · refine Bool.eq_false_iff.mpr fun hseparator => h.first ?_
      exact (List.isPrefixOf_iff_prefix.mp hseparator).trans hfirst
    · refine Bool.eq_false_iff.mpr fun hseparator => h.later ?_
      have hbegins : ['\n', '%', '%'] <+: '\n' :: line :=
        (List.prefix_cons_inj '\n').mpr (List.isPrefixOf_iff_prefix.mp hseparator)
      exact hbegins.isInfix.trans (hlater line hline)

/-- Code below a line is trimmed at its end, and with blank code the line itself is. -/
theorem trimEnd_below (head body : List Char) :
    trimEnd (head ++ '\n' :: body) =
      if trimEnd body = [] then trimEnd head else head ++ '\n' :: trimEnd body := by
  rw [List.append_cons, Text.trimEnd_append, Text.trimEnd_append, List.append_assoc]
  rfl

/-- A command line with code below it is told by its words and the code without the blanks at its
end. -/
theorem ofPiece_of_command (hfirst : ∃ c ∈ head.head?, isBlank c = false) (hline : '\n' ∉ head)
    (body : List Char) :
    ofPiece (head ++ '\n' :: body) = ofCommand (wordsOf head) (trimEnd body) := by
  have hstart : trim (head ++ '\n' :: body) = trimEnd (head ++ '\n' :: body) := by
    obtain ⟨c, hc, hplain⟩ := hfirst
    obtain ⟨head, rfl⟩ := List.head?_eq_some_iff.mp hc
    rw [trim, trimStart, List.cons_append, List.dropWhile_cons_of_neg (by simp [hplain])]
  have hkeeps {text : List Char} (htext : '\n' ∉ text) : ∀ c ∈ text, decide (c ≠ '\n') = true :=
    fun c hc => decide_eq_true (ne_of_mem_of_not_mem hc htext)
  rw [ofPiece, hstart, trimEnd_below]
  split
  · next hcode =>
    -- No code is left below the command line, and so there is no line feed in the block.
    have hhead : '\n' ∉ trimEnd head := fun hmem =>
      hline ((List.rdropWhile_prefix isBlank head).subset hmem)
    have hupTo : Text.upTo '\n' (trimEnd head) = trimEnd head :=
      List.takeWhile_eq_self_iff.mpr (hkeeps hhead)
    have hbelow : (trimEnd head).dropWhile (· ≠ '\n') = [] :=
      List.dropWhile_eq_nil_iff.mpr (hkeeps hhead)
    rw [hupTo, hbelow, wordsOf, Text.words_trimEnd, hcode, ← wordsOf]
    rfl
  · have hupTo : Text.upTo '\n' (head ++ '\n' :: trimEnd body) = head :=
      Text.takeWhile_append_exact (hkeeps hline) (by simp)
    have hbelow : (head ++ '\n' :: trimEnd body).dropWhile (· ≠ '\n') = '\n' :: trimEnd body :=
      Text.dropWhile_append_exact (hkeeps hline) (by simp)
    rw [hupTo, hbelow]
    rfl

end OverrideBlock

end Stubgen
