import Stubgen.Defs.Reading
import Stubgen.Proofs.Defs.Brackets

/-!
# Lexemes that spell forms

Forms are spelled by their tokens. This file proves that a reader of the lexemes gets exactly
the forms back, whatever quote marks stand between them, and that any lexemes with the tokens
of some forms spell these forms.
-/

namespace Stubgen.Defs

/-- The lexemes that are no quote marks. -/
def significant (lexemes : List Lexeme) : List Lexeme :=
  lexemes.filter (·.token ≠ .quote)

/-- The lexemes consist of one run for each form: its tokens are those of the form, and its
first lexeme is on the line of the form. -/
inductive Spelled : List Lexeme → List TopLevel → Prop where
  | nil : Spelled [] []
  | cons {first : Lexeme} {more rest : List Lexeme} {top : TopLevel} {tops : List TopLevel}
      (htokens : (first :: more).map Lexeme.token = top.form.tokens)
      (hline : first.start.line = top.line) (hrest : Spelled rest tops) :
      Spelled (first :: more ++ rest) (top :: tops)

/-- The tokens of significant lexemes are the tokens without quote marks. -/
theorem map_token_significant (lexemes : List Lexeme) :
    (significant lexemes).map Lexeme.token = (lexemes.map Lexeme.token).filter (· ≠ .quote) := by
  rw [List.filter_map]
  rfl

/-- A form has at least one token. -/
theorem Form.exists_tokens_eq_cons (form : Form) : ∃ token rest, form.tokens = token :: rest := by
  cases form with
  | atom text => exact ⟨_, _, rfl⟩
  | str text => exact ⟨_, _, rfl⟩
  | list items => exact ⟨_, _, rfl⟩

namespace Spelled

variable {lexemes : List Lexeme} {forms : List TopLevel}

/-- The spelled forms have the tokens of the lexemes. -/
theorem itemTokens_eq (h : Spelled lexemes forms) :
    Form.itemTokens (forms.map TopLevel.form) = lexemes.map Lexeme.token := by
  induction h with
  | nil => rfl
  | cons htokens _ _ ih =>
    rw [List.map_append, htokens, ← ih]
    rfl

/-- One more form is spelled by its lexemes at the end. -/
theorem concat (h : Spelled lexemes forms) {first : Lexeme} {more : List Lexeme} {form : Form}
    (htokens : (first :: more).map Lexeme.token = form.tokens) :
    Spelled (lexemes ++ first :: more) (forms ++ [⟨first.start.line, form⟩]) := by
  induction h with
  | nil =>
    have hspelled : Spelled (first :: more ++ []) [⟨first.start.line, form⟩] :=
      .cons htokens rfl .nil
    rwa [List.append_nil] at hspelled
  | cons htokens' hline _ ih =>
    rw [List.append_assoc]
    exact .cons htokens' hline ih

end Spelled

/-- Lexemes with the tokens of some forms spell these forms. -/
theorem exists_spelled {lexemes : List Lexeme} {forms : List Form}
    (h : lexemes.map Lexeme.token = Form.itemTokens forms) :
    ∃ tops, tops.map TopLevel.form = forms ∧ Spelled lexemes tops := by
  induction forms generalizing lexemes with
  | nil =>
    obtain rfl := List.map_eq_nil_iff.mp h
    exact ⟨[], rfl, .nil⟩
  | cons form forms ih =>
    obtain ⟨run, rest, rfl, hrun, hrest⟩ := List.map_eq_append_iff.mp h
    obtain ⟨token, tokens, htokens⟩ := form.exists_tokens_eq_cons
    obtain ⟨first, more, rfl, _, _⟩ := List.map_eq_cons_iff.mp (hrun.trans htokens)
    obtain ⟨tops, hforms, hspelled⟩ := ih hrest
    refine ⟨⟨first.start.line, form⟩ :: tops, ?_, .cons hrun rfl hspelled⟩
    rw [List.map_cons, hforms]

/-! ## Reading spelled forms -/

namespace Reading

/-- Reads lexemes, one after the other. -/
def run (reading : Reading) (lexemes : List Lexeme) : Except Fault Reading :=
  lexemes.foldlM step reading

/-- A run over one lexeme is a step. -/
theorem run_single (reading : Reading) (lexeme : Lexeme) :
    reading.run [lexeme] = reading.step lexeme := by
  simp [run]

/-- A run over some lexemes and others is the run over the former and then over the latter. -/
theorem run_append (reading : Reading) (front rest : List Lexeme) :
    reading.run (front ++ rest) = reading.run front >>= (run · rest) :=
  List.foldlM_append

variable {reading middle next : Reading} {front lexemes : List Lexeme} {lexeme : Lexeme}

/-- A reading goes on from where the beginning has led. -/
theorem run_append_of_ok (h : reading.run front = .ok middle) (rest : List Lexeme) :
    reading.run (front ++ rest) = middle.run rest := by
  rw [run_append, h]
  rfl

/-- A run that succeeds has succeeded before its last step, which succeeds too. -/
theorem run_concat_eq_ok_iff : reading.run (lexemes ++ [lexeme]) = .ok next ↔
    ∃ middle, reading.run lexemes = .ok middle ∧ middle.step lexeme = .ok next := by
  rw [run_append]
  cases hrun : reading.run lexemes with
  | error fault => exact ⟨nofun, fun ⟨_, h, _⟩ => nomatch h⟩
  | ok middle =>
    constructor
    · intro h
      exact ⟨middle, rfl, (run_single middle lexeme).symm.trans h⟩
    · rintro ⟨_, hmiddle, h⟩
      obtain rfl := Except.ok.inj hmiddle
      exact (run_single middle lexeme).trans h

/-- Quote marks make no difference. -/
theorem run_significant (reading : Reading) (lexemes : List Lexeme) :
    reading.run (significant lexemes) = reading.run lexemes := by
  induction lexemes generalizing reading with
  | nil => rfl
  | cons lexeme rest ih =>
    by_cases hquote : lexeme.token = .quote
    · have hstep : reading.run [lexeme] = .ok reading := by rw [run_single, step, hquote]
      have hsame : significant (lexeme :: rest) = significant rest := by
        simp [significant, hquote]
      rw [hsame, ih]
      exact (run_append_of_ok hstep rest).symm
    · have hkept : significant (lexeme :: rest) = [lexeme] ++ significant rest := by
        simp [significant, hquote]
      calc reading.run (significant (lexeme :: rest))
          = reading.run [lexeme] >>= (run · (significant rest)) := by rw [hkept, run_append]
        _ = reading.run [lexeme] >>= (run · rest) := by simp only [ih]
        _ = reading.run (lexeme :: rest) := (run_append reading [lexeme] rest).symm

mutual

/-- Reading the lexemes of a form puts the form in its place. -/
theorem run_of_tokens : ∀ (form : Form) (reading : Reading) (first : Lexeme)
    (more : List Lexeme), (first :: more).map Lexeme.token = form.tokens →
      reading.run (first :: more) = .ok (reading.place first.start form)
  | .atom text, reading, first, more, h => by
    obtain ⟨htoken, hmore⟩ := List.cons.inj h
    obtain rfl := List.map_eq_nil_iff.mp hmore
    rw [run_single, step, htoken]
  | .str text, reading, first, more, h => by
    obtain ⟨htoken, hmore⟩ := List.cons.inj h
    obtain rfl := List.map_eq_nil_iff.mp hmore
    rw [run_single, step, htoken]
  | .list items, reading, first, more, h => by
    obtain ⟨htoken, hmore⟩ := List.cons.inj h
    obtain ⟨inner, last, rfl, hinner, hlast⟩ := List.map_eq_append_iff.mp hmore
    obtain ⟨closing, rfl, hclosing⟩ := List.map_eq_singleton_iff.mp hlast
    have hopened : reading.run [first] =
        .ok { reading with pending := ⟨first.start, []⟩ :: reading.pending } := by
      rw [run_single, step, htoken]
    have hitems := run_of_itemTokens items reading ⟨first.start, []⟩ reading.pending inner hinner
    have hclosed := (run_append_of_ok hopened _).trans (run_append_of_ok hitems [closing])
    simp only [run_single, step, hclosing, List.append_nil, List.reverse_reverse] at hclosed
    exact hclosed

/-- Reading the lexemes of forms in an open list adds the forms to its items. -/
theorem run_of_itemTokens : ∀ (forms : List Form) (reading : Reading) (innermost : OpenList)
    (outer : List OpenList) (lexemes : List Lexeme),
    lexemes.map Lexeme.token = Form.itemTokens forms →
      run { reading with pending := innermost :: outer } lexemes =
        .ok { reading with
          pending := { innermost with items := forms.reverse ++ innermost.items } :: outer }
  | [], reading, innermost, outer, lexemes, h => by
    obtain rfl := List.map_eq_nil_iff.mp h
    rfl
  | form :: forms, reading, innermost, outer, lexemes, h => by
    obtain ⟨front, rest, rfl, hfront, hrest⟩ := List.map_eq_append_iff.mp h
    obtain ⟨token, tokens, htokens⟩ := form.exists_tokens_eq_cons
    obtain ⟨first, more, rfl, _, _⟩ := List.map_eq_cons_iff.mp (hfront.trans htokens)
    have hform := run_of_tokens form { reading with pending := innermost :: outer } first more
      hfront
    have hforms := run_of_itemTokens forms reading
      { innermost with items := form :: innermost.items } outer rest hrest
    rw [run_append_of_ok hform rest, List.reverse_cons, List.append_assoc]
    exact hforms

end

/-- Reading spelled forms outside every list completes them. -/
theorem run_of_spelled {lexemes : List Lexeme} {forms : List TopLevel}
    (h : Spelled lexemes forms) (done : List TopLevel) :
    run ⟨[], done⟩ lexemes = .ok ⟨[], forms.reverse ++ done⟩ := by
  induction h generalizing done with
  | nil => rfl
  | @cons first more rest top tops htokens hline _ ih =>
    have hform := run_of_tokens top.form ⟨[], done⟩ first more htokens
    rw [run_append_of_ok hform rest, place, hline, ih, List.reverse_cons, List.append_assoc]
    rfl

end Reading

/-- A text is read if the run over its lexemes ends with no list open. -/
theorem readForms_eq_ok_iff_run {source : String} {forms : List TopLevel} :
    readForms source = .ok forms ↔ Reading.empty.run (lex source) = .ok ⟨[], forms.reverse⟩ := by
  have hread : readForms source = Reading.empty.run (lex source) >>= Reading.finish := rfl
  rw [hread]
  cases hrun : Reading.empty.run (lex source) with
  | error fault => exact ⟨nofun, nofun⟩
  | ok reading =>
    obtain ⟨pending, done⟩ := reading
    constructor
    · intro h
      cases pending with
      | nil =>
        obtain rfl := Except.ok.inj h
        rw [List.reverse_reverse]
      | cons innermost outer => exact nomatch h
    · intro h
      obtain ⟨rfl, rfl⟩ := Reading.mk.inj (Except.ok.inj h)
      exact congrArg Except.ok forms.reverse_reverse

/-- Spelled forms are read. -/
theorem readForms_of_spelled {source : String} {forms : List TopLevel}
    (h : Spelled (significant (lex source)) forms) : readForms source = .ok forms := by
  have hrun := Reading.run_of_spelled h []
  rw [Reading.run_significant, List.append_nil] at hrun
  exact readForms_eq_ok_iff_run.mpr hrun

end Stubgen.Defs
