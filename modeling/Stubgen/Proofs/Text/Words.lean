import Stubgen.Proofs.Text.Trimming

/-!
# The words of a text

A text has the words of what stands on the two sides of a blank character. A text without a blank
character is one word, and blank characters around a text bring no word.
-/

namespace Stubgen.Text

variable {text blanks : List Char} {c : Char}

/-- A blank character at the beginning is in no word. -/
theorem words_cons_of_blank (hc : isBlank c = true) (text : List Char) :
    words (c :: text) = words text := by
  rw [words.eq_def]
  exact if_pos hc

/-- A text that does not begin with a blank character has a word. -/
theorem words_cons_ne_nil (hc : ¬isBlank c = true) (text : List Char) : words (c :: text) ≠ [] := by
  unfold words
  split
  · contradiction
  · split
    · exact List.cons_ne_nil _ _
    · split
      · exact List.cons_ne_nil _ _
      · split
        · exact List.cons_ne_nil _ _
        · exact List.cons_ne_nil _ _

/-- A character before a blank one is a word. -/
theorem words_before_blank (hc : ¬isBlank c = true) {d : Char} (hd : isBlank d = true)
    (text : List Char) : words (c :: d :: text) = [c] :: words text := by
  rw [words.eq_def]
  dsimp only
  rw [if_neg hc, if_pos hd, words_cons_of_blank hd]

/-- A character before one that is not blank belongs to the same word. -/
theorem words_within {word : List Char} {more : List (List Char)} (hc : ¬isBlank c = true)
    {d : Char} (hd : ¬isBlank d = true) (hwords : words (d :: text) = word :: more) :
    words (c :: d :: text) = (c :: word) :: more := by
  rw [words.eq_def]
  dsimp only
  rw [if_neg hc, if_neg hd, hwords]

/-- Words end at a blank character. -/
theorem words_append_blank (hc : isBlank c = true) (front rest : List Char) :
    words (front ++ c :: rest) = words front ++ words rest := by
  induction front with
  | nil => exact words_cons_of_blank hc rest
  | cons d front ih =>
    by_cases hd : isBlank d = true
    · rw [List.cons_append, words_cons_of_blank hd, words_cons_of_blank hd, ih]
    cases front with
    | nil =>
      -- The word that `d` is ends at the blank character.
      rw [List.cons_append, List.nil_append, words_before_blank hd hc]
      simp [words, hd]
    | cons e front =>
      by_cases he : isBlank e = true
      · rw [List.cons_append, List.cons_append, words_before_blank hd he, words_before_blank hd he,
          List.cons_append]
        rw [List.cons_append, words_cons_of_blank he, words_cons_of_blank he] at ih
        rw [ih]
      · obtain ⟨word, more, hwords⟩ := List.exists_cons_of_ne_nil (words_cons_ne_nil he front)
        have hlonger : words (e :: (front ++ c :: rest)) = word :: (more ++ words rest) := by
          rw [← List.cons_append, ih, hwords, List.cons_append]
        rw [List.cons_append, List.cons_append, words_within hd he hlonger,
          words_within hd he hwords, List.cons_append]

/-- Blank characters are no words. -/
theorem words_of_blank (h : ∀ c ∈ blanks, isBlank c = true) : words blanks = [] := by
  induction blanks with
  | nil => rfl
  | cons c blanks ih =>
    obtain ⟨hc, hblanks⟩ := List.forall_mem_cons.mp h
    rw [words_cons_of_blank hc, ih hblanks]

/-- A text without blank characters is one word. -/
theorem words_of_plain (hsome : text ≠ []) (h : ∀ c ∈ text, isBlank c = false) :
    words text = [text] := by
  induction text with
  | nil => contradiction
  | cons c text ih =>
    obtain ⟨hc, htext⟩ := List.forall_mem_cons.mp h
    cases text with
    | nil => simp [words, hc]
    | cons d text =>
      have hd : isBlank d = false := htext d List.mem_cons_self
      exact words_within (by simp [hc]) (by simp [hd]) (ih (List.cons_ne_nil d text) htext)

/-- Blank characters behind a text bring no word. -/
theorem words_append_of_blank (text : List Char) (h : ∀ c ∈ blanks, isBlank c = true) :
    words (text ++ blanks) = words text := by
  cases blanks with
  | nil => rw [List.append_nil]
  | cons c blanks =>
    obtain ⟨hc, hblanks⟩ := List.forall_mem_cons.mp h
    rw [words_append_blank hc, words_of_blank hblanks, List.append_nil]

/-- A text has the words of what is left when its end is trimmed. -/
theorem words_trimEnd (text : List Char) : words (trimEnd text) = words text := by
  obtain ⟨blanks, htext, hblanks⟩ := exists_append_of_trimEnd text
  rw [← words_append_of_blank (trimEnd text) hblanks, ← htext]

end Stubgen.Text
