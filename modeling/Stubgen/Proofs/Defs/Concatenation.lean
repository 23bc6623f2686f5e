import Stubgen.Proofs.Defs.Acceptance
import Stubgen.Proofs.Defs.Partition

/-!
# Texts one below the other

A text that can be read leaves nothing open: no string, no comment that goes on after its line and
no list. This file proves that a text below it, from the next line on, is read as if it stood alone,
apart from the places of its lexemes and the lines of its forms or of its fault.
-/

namespace Stubgen.Defs

/-- The place so many bytes and lines further down. -/
def Position.movedDown (bytes lines : Nat) (position : Position) : Position :=
  ⟨position.offset + bytes, position.line + lines⟩

/-- The lexeme so many bytes and lines further down. -/
def Lexeme.movedDown (bytes lines : Nat) (lexeme : Lexeme) : Lexeme :=
  ⟨lexeme.token, lexeme.start.movedDown bytes lines, lexeme.stop.movedDown bytes lines⟩

/-- The form so many lines further down. -/
def TopLevel.movedDown (lines : Nat) (top : TopLevel) : TopLevel :=
  { top with line := top.line + lines }

/-- The fault so many lines further down. -/
def Fault.movedDown (lines : Nat) (fault : Fault) : Fault :=
  { fault with line := fault.line + lines }

/-- The open list so many bytes and lines further down. -/
def OpenList.movedDown (bytes lines : Nat) (openList : OpenList) : OpenList :=
  { openList with start := openList.start.movedDown bytes lines }

/-! ## Lexemes -/

/-- The place after a piece moves with the place before it. -/
theorem Position.after_movedDown (bytes lines : Nat) (position : Position) (piece : List Char) :
    (position.movedDown bytes lines).after piece =
      (position.after piece).movedDown bytes lines := by
  simp only [Position.after, Position.movedDown, Position.mk.injEq]
  constructor
  · omega
  · omega

/-- The lexemes of a text move with the place where it begins. -/
theorem Partitioned.movedDown {position : Position} {text : List Char} {lexemes : List Lexeme}
    (h : Partitioned position text lexemes) (bytes lines : Nat) :
    Partitioned (position.movedDown bytes lines) text
      (lexemes.map (Lexeme.movedDown bytes lines)) := by
  induction h with
  | done hgap => exact .done hgap
  | @lexeme position gap piece rest lexeme lexemes hgap hstart hpiece hstop _ ih =>
    refine .lexeme hgap ?_ hpiece ?_ ih
    · rw [Position.after_movedDown, ← hstart]
      rfl
    · rw [Lexeme.movedDown, Position.after_movedDown, ← hstop]

/-- What separates depends only on how the rest begins. -/
theorem Separates.of_head? {gap rest other : List Char} (h : Separates gap rest)
    (hhead : other.head? = rest.head?) : Separates gap other := by
  induction h with
  | nil => exact .nil
  | blank hblank _ ih => exact (ih hhead).blank hblank
  | @comment line gap rest hline hend _ ih =>
    refine (ih hhead).comment hline ?_
    rwa [List.head?_append, hhead, ← List.head?_append]

/-- A gap at the end of a text, a line feed and another gap are one gap. -/
theorem Separates.append_line {gap more rest : List Char} (h : Separates gap [])
    (hmore : Separates more rest) : Separates (gap ++ '\n' :: more) rest := by
  -- The induction needs the rest of the first gap as a variable.
  generalize hnil : ([] : List Char) = nothing at h
  induction h with
  | nil => exact hmore.blank (by decide)
  | blank hblank _ ih => exact (ih hnil).blank hblank
  | @comment line gap _ hline hend _ ih =>
    subst hnil
    rw [List.cons_append, List.cons_append, List.append_assoc]
    refine (ih rfl).comment hline ?_
    cases gap with
    | nil => simp
    | cons c gap => simpa using hend

/-- A valid token is written in the same way if a line feed and more follow. -/
theorem Written.append_line {token : Token} {piece rest : List Char} (h : Written token piece rest)
    (hvalid : ∀ source, token ≠ .invalid source) (more : List Char) :
    Written token piece (rest ++ '\n' :: more) := by
  cases h with
  | opening => exact .opening
  | closing => exact .closing
  | quote => exact .quote
  | str hbody => exact .str hbody
  | atom hpiece hinside hend =>
    refine .atom hpiece hinside ?_
    cases rest with
    | nil => simp [delimiters, gapCharacters]
    | cons c rest => simpa using hend
  | invalid _ _ => exact (hvalid _ rfl).elim

/-- Below a text without invalid tokens, the scan goes on as at the beginning of a text. -/
theorem Partitioned.append_line {position : Position} {a b : List Char}
    {lexemes more : List Lexeme} (ha : Partitioned position a lexemes)
    (hvalid : ∀ lexeme ∈ lexemes, ∀ source, lexeme.token ≠ .invalid source)
    (hb : Partitioned (position.after (a ++ ['\n'])) b more) :
    Partitioned position (a ++ '\n' :: b) (lexemes ++ more) := by
  induction ha with
  | @done position gap hgap =>
    rw [List.append_cons]
    refine .of_gap ?_ hb
    intro next rest hnext _
    rw [List.append_assoc]
    exact hgap.append_line hnext
  | @lexeme position gap piece rest lexeme lexemes hgap hstart hpiece hstop _ ih =>
    have hvalidFirst := hvalid lexeme List.mem_cons_self
    have hvalidRest : ∀ next ∈ lexemes, ∀ source, next.token ≠ .invalid source :=
      fun next hnext => hvalid next (List.mem_cons_of_mem _ hnext)
    have hhead : (piece ++ (rest ++ '\n' :: b)).head? = (piece ++ rest).head? := by
      obtain ⟨c, cs, rfl⟩ := List.exists_cons_of_ne_nil hpiece.ne_nil
      rfl
    have hplace : position.after (gap ++ (piece ++ rest) ++ ['\n']) =
        lexeme.stop.after (rest ++ ['\n']) := by
      rw [hstop, hstart, Position.after_after, Position.after_after]
      simp
    rw [hplace] at hb
    rw [List.append_assoc, List.append_assoc, List.cons_append]
    exact .lexeme (hgap.of_head? hhead) hstart (hpiece.append_line hvalidFirst b) hstop
      (ih hvalidRest hb)

/-! ## Readings -/

namespace Reading

/-- The reading of a text that stands so many bytes and lines further down, below completed
forms. -/
def below (done : List TopLevel) (bytes lines : Nat) (reading : Reading) : Reading :=
  ⟨reading.pending.map (OpenList.movedDown bytes lines),
    reading.done.map (TopLevel.movedDown lines) ++ done⟩

/-- What comes of a reading further down, below completed forms. -/
def outcomeBelow (done : List TopLevel) (bytes lines : Nat) (outcome : Except Fault Reading) :
    Except Fault Reading :=
  (outcome.map (below done bytes lines)).mapError (Fault.movedDown lines)

variable (done : List TopLevel) (bytes lines : Nat) (reading : Reading)

/-- A form is placed further down as it is placed in a text of its own. -/
theorem place_below (start : Position) (form : Form) :
    (reading.below done bytes lines).place (start.movedDown bytes lines) form =
      (reading.place start form).below done bytes lines := by
  obtain ⟨pending, completed⟩ := reading
  cases pending <;> rfl

/-- A lexeme is read further down as it is read in a text of its own. -/
theorem step_below (lexeme : Lexeme) :
    (reading.below done bytes lines).step (lexeme.movedDown bytes lines) =
      outcomeBelow done bytes lines (reading.step lexeme) := by
  obtain ⟨token, start, stop⟩ := lexeme
  obtain ⟨pending, completed⟩ := reading
  cases token with
  | closing =>
    cases pending with
    | nil => rfl
    | cons innermost outer =>
      exact congrArg Except.ok (place_below done bytes lines ⟨outer, completed⟩ innermost.start _)
  | str text => exact congrArg Except.ok (place_below done bytes lines ⟨pending, completed⟩ start _)
  | atom text =>
    exact congrArg Except.ok (place_below done bytes lines ⟨pending, completed⟩ start _)
  | opening => rfl
  | quote => rfl
  | invalid source => rfl

/-- Lexemes are read further down as they are read in a text of their own. -/
theorem run_below (lexemes : List Lexeme) :
    (reading.below done bytes lines).run (lexemes.map (Lexeme.movedDown bytes lines)) =
      outcomeBelow done bytes lines (reading.run lexemes) := by
  induction lexemes generalizing reading with
  | nil => rfl
  | cons lexeme rest ih =>
    have hstep := step_below done bytes lines reading lexeme
    simp only [run, List.map_cons, List.foldlM_cons] at ih ⊢
    rw [hstep]
    cases reading.step lexeme with
    | error fault => rfl
    | ok next => exact ih next

/-- A reading ends further down as it ends in a text of its own. -/
theorem finish_below :
    (reading.below done bytes lines).finish =
      (reading.finish.map fun forms =>
        done.reverse ++ forms.map (TopLevel.movedDown lines)).mapError (Fault.movedDown lines) := by
  obtain ⟨pending, completed⟩ := reading
  cases pending with
  | nil =>
    refine congrArg Except.ok ?_
    rw [below, List.reverse_append, ← List.map_reverse]
  | cons innermost outer => rfl

end Reading

/-- A text without invalid tokens and a text below it have the lexemes of the one and those of the
other, so many bytes and lines further down. -/
theorem lex_append_line {a : String}
    (hvalid : ∀ lexeme ∈ lex a, ∀ source, lexeme.token ≠ .invalid source) (b : String) :
    ∃ bytes, lex (a ++ "\n" ++ b) =
      lex a ++ (lex b).map (Lexeme.movedDown bytes (a.toList.count '\n' + 1)) := by
  have hplace : Position.start.after (a.toList ++ ['\n']) =
      Position.start.movedDown (Text.byteLength (a.toList ++ ['\n']))
        (a.toList.count '\n' + 1) := by
    simp [Position.after, Position.movedDown, Position.start]
  have hb := (partitioned_lexFrom .start b.toList).movedDown
    (Text.byteLength (a.toList ++ ['\n'])) (a.toList.count '\n' + 1)
  rw [← hplace] at hb
  have hboth := (partitioned_lexFrom .start a.toList).append_line hvalid hb
  refine ⟨Text.byteLength (a.toList ++ ['\n']), ?_⟩
  rw [lex, String.toList_append, String.toList_append, List.append_assoc]
  exact hboth.lexFrom_eq

/-- A text that can be read has no invalid token. -/
theorem token_ne_invalid_of_readForms {source : String} {forms : List TopLevel}
    (h : readForms source = .ok forms) :
    ∀ lexeme ∈ lex source, ∀ text, lexeme.token ≠ .invalid text := by
  intro lexeme hmem text htoken
  obtain ⟨hvalid, _⟩ := exists_readForms_eq_ok_iff.mp ⟨forms, h⟩
  exact hvalid text (htoken ▸ List.mem_map_of_mem hmem)

/-- Below a text that can be read, another text can be read if it can be read alone. Its forms
then come after those of the first text, further down by one line and the lines of that text. If it
cannot be read alone, it has the same fault below the first text, as much further down. -/
theorem readForms_append_line (a b : String) (forms : List TopLevel)
    (ha : readForms a = .ok forms) :
    let lines := a.toList.count '\n' + 1
    (∀ more, readForms b = .ok more →
      readForms (a ++ "\n" ++ b) = .ok (forms ++ more.map (TopLevel.movedDown lines))) ∧
    ∀ fault, readForms b = .error fault →
      readForms (a ++ "\n" ++ b) = .error ⟨fault.line + lines, fault.cause⟩ := by
  intro lines
  obtain ⟨bytes, hlexemes⟩ := lex_append_line (token_ne_invalid_of_readForms ha) b
  have hbelow : Reading.empty.run (lex (a ++ "\n" ++ b)) =
      Reading.outcomeBelow forms.reverse bytes lines (Reading.empty.run (lex b)) := by
    rw [hlexemes, Reading.run_append_of_ok (readForms_eq_ok_iff_run.mp ha), ← Reading.run_below]
    rfl
  have hread : readForms (a ++ "\n" ++ b) =
      ((readForms b).map fun more => forms ++ more.map (TopLevel.movedDown lines)).mapError
        (Fault.movedDown lines) := by
    have hwhole : readForms (a ++ "\n" ++ b) =
      Reading.empty.run (lex (a ++ "\n" ++ b)) >>= Reading.finish := rfl
    have halone : readForms b = Reading.empty.run (lex b) >>= Reading.finish := rfl
    rw [hwhole, hbelow, halone]
    cases Reading.empty.run (lex b) with
    | error fault => rfl
    | ok reading =>
      have hfinish := Reading.finish_below forms.reverse bytes lines reading
      rw [List.reverse_reverse] at hfinish
      exact hfinish
  constructor
  · intro more hb
    rw [hread, hb]
    rfl
  · intro fault hb
    rw [hread, hb]
    rfl

/-- Below a text that ends within a comment, a word is read two lines further down, and so is the
stray closing parenthesis of another text. -/
theorem readForms_append_line_of_comment :
    readForms ("(a\n b) ; end" ++ "\n" ++ "c") =
      .ok [⟨1, .list [.atom "a", .atom "b"]⟩, ⟨3, .atom "c"⟩] ∧
    readForms ("(a\n b) ; end" ++ "\n" ++ "\n)") = .error ⟨4, .strayClosing⟩ := by
  have ha : readForms "(a\n b) ; end" = .ok [⟨1, .list [.atom "a", .atom "b"]⟩] := by
    with_unfolding_all rfl
  obtain ⟨hok, -⟩ := readForms_append_line "(a\n b) ; end" "c" _ ha
  obtain ⟨-, herror⟩ := readForms_append_line "(a\n b) ; end" "\n)" _ ha
  have hb : readForms "c" = .ok [⟨1, .atom "c"⟩] := by with_unfolding_all rfl
  have hstray : readForms "\n)" = .error ⟨2, .strayClosing⟩ := by with_unfolding_all rfl
  exact ⟨hok _ hb, herror _ hstray⟩

end Stubgen.Defs
