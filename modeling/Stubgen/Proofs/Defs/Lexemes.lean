import Stubgen.Defs.Token

/-!
# Where lexemes stand

A scan of a definition text keeps count of the bytes and of the lines that it has passed. This
file proves that every lexeme is the token at its place in the text, and that its place tells
how many bytes and how many line feeds stand before it.
-/

namespace Stubgen.Defs

/-- The place after two pieces of text is the place after their concatenation. -/
theorem Position.after_after (position : Position) (a b : List Char) :
    (position.after a).after b = position.after (a ++ b) := by
  simp [Position.after, Nat.add_assoc]

/-- A lexeme is the token that begins after some characters of a text, which itself begins at
the given place. -/
def Lexeme.StandsIn (lexeme : Lexeme) (position : Position) (text : List Char) : Prop :=
  ∃ before c rest, text = before ++ c :: rest ∧ lexeme.start = position.after before ∧
    lexeme.token = (tokenAt c rest).1 ∧ lexeme.stop = lexeme.start.after (tokenAt c rest).2

/-- A lexeme of the text after a piece is one of the whole text. -/
theorem Lexeme.StandsIn.of_rest {lexeme : Lexeme} {position : Position} {piece rest : List Char}
    (h : lexeme.StandsIn (position.after piece) rest) :
    lexeme.StandsIn position (piece ++ rest) := by
  obtain ⟨before, c, after, rfl, hstart, htoken, hstop⟩ := h
  refine ⟨piece ++ before, c, after, (List.append_assoc ..).symm, ?_, htoken, hstop⟩
  rw [hstart, Position.after_after]

/-- The body of a string, followed by the rest of the text, is the text. -/
theorem stringBody_append (text : List Char) :
    stringBody text ++ text.drop (stringBody text).length = text := by
  fun_induction stringBody text with
  | case1 => rfl
  | case2 => rfl
  | case3 => rfl
  | case4 => rfl
  | case5 => rfl
  | case6 d cs _ _ ih => simpa using ih
  | case7 c d cs _ _ ih => simpa using ih

/-- The characters of a token, followed by the rest of the text, are the text. -/
theorem tokenAt_append (c : Char) (cs : List Char) :
    (tokenAt c cs).2 ++ cs.drop ((tokenAt c cs).2.length - 1) = c :: cs := by
  have hbody := stringBody_append cs
  unfold tokenAt
  split
  · simp
  split
  · simp
  split
  · simp
  split
  · dsimp only
    split
    · next rest hrest =>
      have hdrop : cs.drop ((stringBody cs).length + 1) = rest := by
        rw [← List.drop_drop, hrest, List.drop_one, List.tail_cons]
      rw [hrest] at hbody
      simpa [hdrop] using hbody
    · simpa using hbody
  · have hpiece := List.takeWhile_prefix (! isDelimiter ·) (l := cs)
    simpa using List.prefix_iff_eq_append.mp hpiece

/-- Every lexeme of a scan stands in the text. -/
theorem standsIn_of_mem_lexFrom {position : Position} {text : List Char} {lexeme : Lexeme}
    (h : lexeme ∈ lexFrom position text) : lexeme.StandsIn position text := by
  fun_induction lexFrom position text with
  | case1 => simp at h
  | case2 position c cs hgap ih => exact (ih h).of_rest
  | case3 position cs hgap comment ih =>
    have hsplit : comment ++ cs.dropWhile (· ≠ '\n') = ';' :: cs := by
      simp [comment]
    rw [← hsplit]
    exact (ih h).of_rest
  | case4 position c cs hgap hcomment token piece htoken stop ih =>
    rcases List.mem_cons.mp h with rfl | h
    · exact ⟨[], c, cs, rfl, by simp [Position.after], by rw [htoken], by rw [htoken]⟩
    · have hsplit := tokenAt_append c cs
      rw [htoken] at hsplit
      rw [← hsplit]
      exact (ih h).of_rest

/-- The line of a lexeme is one plus the number of line feeds before it. -/
theorem lineAt_of_mem_lex {source : String} {lexeme : Lexeme} (h : lexeme ∈ lex source) :
    Text.lineAt source.toList lexeme.start.offset = lexeme.start.line := by
  obtain ⟨before, c, rest, htext, hstart, _⟩ := standsIn_of_mem_lexFrom h
  have hoffset : lexeme.start.offset = Text.byteLength before := by
    simp [hstart, Position.after, Position.start]
  have hline : lexeme.start.line = 1 + before.count '\n' := by
    simp [hstart, Position.after, Position.start]
  rw [Text.lineAt, hoffset, hline, htext, Text.takeBytes_byteLength, Nat.add_comm]

end Stubgen.Defs
