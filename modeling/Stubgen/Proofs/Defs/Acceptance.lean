import Stubgen.Proofs.Defs.Lexemes
import Stubgen.Proofs.Defs.OpenLists

/-!
# Which texts are read

The texts that are read are those whose tokens are valid and balanced, and the forms that they
give have exactly these tokens, apart from quote marks. A text that is not read is faulty at the
first lexeme that cannot be read, or else at the innermost parenthesis that is still open.
-/

namespace Stubgen.Defs

/-- The tokens of a text. -/
def tokensOf (source : String) : List Token :=
  (lex source).map Lexeme.token

/-- The causes for which a token is refused after some others. -/
inductive Refused (before : List Token) : Token → Cause → Prop where
  /-- All lists are closed already. -/
  | stray (hclosed : before.count .opening = before.count .closing) :
      Refused before .closing .strayClosing
  | invalid (text : String) : Refused before (.invalid text) (.invalidToken text)

/-- The fault shows at a lexeme that is refused after others that can be read. -/
def FaultyAtLexeme (lexemes : List Lexeme) (fault : Fault) : Prop :=
  ∃ before lexeme after, lexemes = before ++ lexeme :: after ∧
    Readable (before.map Lexeme.token) ∧
    Refused (before.map Lexeme.token) lexeme.token fault.cause ∧
    fault.line = lexeme.start.line

/-- All lexemes can be read, but the fault shows at a parenthesis that is not closed; the lists
that are opened after it are. -/
def FaultyAtEnd (lexemes : List Lexeme) (fault : Fault) : Prop :=
  Readable (lexemes.map Lexeme.token) ∧ ∃ before opening after,
    lexemes = before ++ opening :: after ∧ opening.token = .opening ∧
    Balanced (after.map Lexeme.token) ∧ fault = ⟨opening.start.line, .unclosed⟩

namespace Reading

variable {reading : Reading} {lexemes : List Lexeme} {lexeme : Lexeme} {fault : Fault}

/-- A step succeeds unless the token is invalid or closes a list when none is open. -/
theorem exists_step_eq_ok_iff : (∃ next, reading.step lexeme = .ok next) ↔
    (∀ text, lexeme.token ≠ .invalid text) ∧ (lexeme.token = .closing → reading.pending ≠ []) := by
  unfold step
  cases htoken : lexeme.token with
  | closing => cases hpending : reading.pending <;> simp
  | _ => simp

/-- Lexemes are read to the last exactly if their tokens are readable. -/
theorem exists_run_eq_ok_iff : (∃ reading, empty.run lexemes = .ok reading) ↔
    Readable (lexemes.map Lexeme.token) := by
  induction lexemes using List.reverseRecOn with
  | nil => exact ⟨fun _ => ⟨nofun, nests_nil⟩, fun _ => ⟨empty, rfl⟩⟩
  | append_singleton lexemes lexeme ih =>
    rw [List.map_append, List.map_singleton, readable_concat_iff, ← ih]
    have hopen {middle : Reading} (hrun : empty.run lexemes = .ok middle) :
        middle.pending ≠ [] ↔
          (lexemes.map Lexeme.token).count .closing < (lexemes.map Lexeme.token).count .opening := by
      have hcount := length_pending_run hrun
      rw [← List.length_pos_iff]
      omega
    constructor
    · rintro ⟨reading, h⟩
      obtain ⟨middle, hrun, hstep⟩ := run_concat_eq_ok_iff.mp h
      obtain ⟨hvalid, hclosing⟩ := exists_step_eq_ok_iff.mp ⟨reading, hstep⟩
      exact ⟨⟨middle, hrun⟩, hvalid, fun htoken => (hopen hrun).mp (hclosing htoken)⟩
    · rintro ⟨⟨middle, hrun⟩, hvalid, hclosing⟩
      obtain ⟨reading, hstep⟩ := exists_step_eq_ok_iff.mpr
        ⟨hvalid, fun htoken => (hopen hrun).mpr (hclosing htoken)⟩
      exact ⟨reading, run_concat_eq_ok_iff.mpr ⟨middle, hrun, hstep⟩⟩

/-- A step that fails refuses its lexeme. -/
theorem refused_of_step {before : List Lexeme} (hrun : empty.run before = .ok reading)
    (hstep : reading.step lexeme = .error fault) :
    Refused (before.map Lexeme.token) lexeme.token fault.cause ∧
      fault.line = lexeme.start.line := by
  have hcount := length_pending_run hrun
  unfold step at hstep
  split at hstep
  case h_2 htoken =>
    split at hstep
    · next hpending =>
      obtain rfl := Except.error.inj hstep
      rw [hpending, List.length_nil] at hcount
      exact ⟨htoken ▸ .stray (by omega), rfl⟩
    · exact nomatch hstep
  case h_6 text htoken =>
    obtain rfl := Except.error.inj hstep
    exact ⟨htoken ▸ .invalid text, rfl⟩
  all_goals exact nomatch hstep

/-- A run that fails does so at a first lexeme. -/
theorem faultyAtLexeme_of_run (h : empty.run lexemes = .error fault) :
    FaultyAtLexeme lexemes fault := by
  induction lexemes using List.reverseRecOn with
  | nil => exact nomatch h
  | append_singleton lexemes lexeme ih =>
    rw [run_append] at h
    cases hrun : empty.run lexemes with
    | error earlier =>
      rw [hrun] at h
      obtain rfl := Except.error.inj h
      obtain ⟨before, found, after, rfl, hfound⟩ := ih hrun
      exact ⟨before, found, after ++ [lexeme], by simp, hfound⟩
    | ok reading =>
      rw [hrun] at h
      have hstep : reading.step lexeme = .error fault := (run_single reading lexeme).symm.trans h
      exact ⟨lexemes, lexeme, [], rfl, exists_run_eq_ok_iff.mp ⟨reading, hrun⟩,
        refused_of_step hrun hstep⟩

/-- A run that ends while lists are open leaves the innermost of them unclosed. -/
theorem faultyAtEnd_of_finish (hrun : empty.run lexemes = .ok reading)
    (hfinish : reading.finish = .error fault) : FaultyAtEnd lexemes fault := by
  refine ⟨exists_run_eq_ok_iff.mp ⟨reading, hrun⟩, ?_⟩
  obtain ⟨pending, done⟩ := reading
  obtain ⟨closed, opened, hlexemes, _, hopened⟩ := represents_of_run hrun
  cases hopened with
  | nil => exact nomatch hfinish
  | @cons before items opening innermost outer _ hopening hstart hitems =>
    obtain rfl := Except.error.inj hfinish
    obtain ⟨front, tail, rfl, _, htail⟩ := List.filter_eq_append_iff.mp hlexemes
    obtain ⟨middle, rest, rfl, _, hrest⟩ := List.filter_eq_append_iff.mp htail
    obtain ⟨quotes, after, rfl, _, _, hafter⟩ := List.filter_eq_cons_iff.mp hrest
    refine ⟨front ++ middle ++ quotes, opening, after, by simp, hopening, .of_unquoted ?_,
      by rw [hstart]⟩
    rw [← map_token_significant, significant, hafter, hitems]
    exact Form.balanced_itemTokens _

end Reading

/-- Forms are read exactly from a text whose significant lexemes spell them. -/
theorem readForms_eq_ok_iff {source : String} {forms : List TopLevel} :
    readForms source = .ok forms ↔ Spelled (significant (lex source)) forms := by
  refine ⟨fun h => ?_, readForms_of_spelled⟩
  obtain ⟨closed, opened, hlexemes, hclosed, hopened⟩ :=
    Reading.represents_of_run (readForms_eq_ok_iff_run.mp h)
  cases hopened
  rwa [hlexemes, List.append_nil, ← forms.reverse_reverse]

/-- The forms of a text have its tokens, apart from quote marks. -/
theorem itemTokens_of_readForms {source : String} {forms : List TopLevel}
    (h : readForms source = .ok forms) :
    Form.itemTokens (forms.map TopLevel.form) = (tokensOf source).filter (· ≠ .quote) := by
  rw [(readForms_eq_ok_iff.mp h).itemTokens_eq, map_token_significant]
  rfl

/-- A text is read exactly if its tokens are valid and balanced. -/
theorem exists_readForms_eq_ok_iff {source : String} :
    (∃ forms, readForms source = .ok forms) ↔
      (∀ text, .invalid text ∉ tokensOf source) ∧ Balanced (tokensOf source) := by
  constructor
  · rintro ⟨forms, h⟩
    have hrun := readForms_eq_ok_iff_run.mp h
    have hbalanced := Form.balanced_itemTokens (forms.map TopLevel.form)
    rw [itemTokens_of_readForms h] at hbalanced
    exact ⟨(Reading.exists_run_eq_ok_iff.mp ⟨_, hrun⟩).1, hbalanced.of_unquoted⟩
  · rintro ⟨hvalid, hbalanced⟩
    obtain ⟨⟨pending, done⟩, hrun⟩ := Reading.exists_run_eq_ok_iff.mpr ⟨hvalid, hbalanced.nests⟩
    have hcount : pending.length + (tokensOf source).count .closing =
        (tokensOf source).count .opening := Reading.length_pending_run hrun
    have hsettled := hbalanced.settled
    have hnone : pending = [] := List.length_eq_zero_iff.mp (by omega)
    refine ⟨done.reverse, readForms_eq_ok_iff_run.mpr ?_⟩
    rw [hrun, hnone, List.reverse_reverse]

/-- A text that is not read is faulty at a lexeme or at its end. -/
theorem faulty_of_readForms {source : String} {fault : Fault}
    (h : readForms source = .error fault) :
    FaultyAtLexeme (lex source) fault ∨ FaultyAtEnd (lex source) fault := by
  have hread : readForms source = Reading.empty.run (lex source) >>= Reading.finish := rfl
  rw [hread] at h
  cases hrun : Reading.empty.run (lex source) with
  | error earlier =>
    rw [hrun] at h
    obtain rfl := Except.error.inj h
    exact .inl (Reading.faultyAtLexeme_of_run hrun)
  | ok reading =>
    rw [hrun] at h
    exact .inr (Reading.faultyAtEnd_of_finish hrun h)

/-- A text is read exactly if its tokens are valid and balanced. Its forms, each on the line of
its first lexeme, then have the tokens of the text apart from quote marks, and every other text
with these tokens gives the same forms. A text that is not read is faulty at the first lexeme
that cannot be read, or else at the innermost parenthesis that is still open. The line of a
lexeme is one plus the number of line feeds before it. -/
theorem readForms_faithful (source : String) :
    ((∃ forms, readForms source = .ok forms) ↔
      (∀ text, .invalid text ∉ tokensOf source) ∧ Balanced (tokensOf source)) ∧
    (∀ forms, readForms source = .ok forms →
      Form.itemTokens (forms.map TopLevel.form) = (tokensOf source).filter (· ≠ .quote) ∧
      Spelled (significant (lex source)) forms ∧
      ∀ other, (tokensOf other).filter (· ≠ .quote) = (tokensOf source).filter (· ≠ .quote) →
        ∃ others, readForms other = .ok others ∧
          others.map TopLevel.form = forms.map TopLevel.form) ∧
    (∀ fault, readForms source = .error fault →
      FaultyAtLexeme (lex source) fault ∨ FaultyAtEnd (lex source) fault) ∧
    ∀ lexeme ∈ lex source, lexeme.StandsIn .start source.toList ∧
      Text.lineAt source.toList lexeme.start.offset = lexeme.start.line := by
  refine ⟨exists_readForms_eq_ok_iff, fun forms h => ?_, fun fault => faulty_of_readForms,
    fun lexeme hlexeme => ⟨standsIn_of_mem_lexFrom hlexeme, lineAt_of_mem_lex hlexeme⟩⟩
  have htokens := itemTokens_of_readForms h
  refine ⟨htokens, readForms_eq_ok_iff.mp h, fun other hother => ?_⟩
  have hlexemes : (significant (lex other)).map Lexeme.token =
      Form.itemTokens (forms.map TopLevel.form) := by
    rw [map_token_significant, htokens]
    exact hother
  obtain ⟨others, hforms, hspelled⟩ := exists_spelled hlexemes
  exact ⟨others, readForms_of_spelled hspelled, hforms⟩

end Stubgen.Defs
