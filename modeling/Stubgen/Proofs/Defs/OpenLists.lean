import Stubgen.Proofs.Defs.Spelling
import Mathlib.Data.List.Induction

/-!
# What a reading in progress stands for

At every moment, a reading stands for the significant lexemes that it has passed: those of the
completed forms, and then, from the outermost open list to the innermost, an opening parenthesis
and the lexemes of the items seen so far. This file proves that every step keeps it so, and that
the number of open lists tells which lexemes can be read.
-/

namespace Stubgen.Defs

/-- The lexemes consist of an opening parenthesis and items for each open list, the outermost
first. -/
inductive Opened : List Lexeme → List OpenList → Prop where
  | nil : Opened [] []
  | cons {before items : List Lexeme} {opening : Lexeme} {innermost : OpenList}
      {outer : List OpenList} (hbefore : Opened before outer)
      (hopening : opening.token = .opening) (hstart : opening.start = innermost.start)
      (hitems : items.map Lexeme.token = Form.itemTokens innermost.items.reverse) :
      Opened (before ++ opening :: items) (innermost :: outer)

/-- A reading stands for lexemes: first those of the completed forms, then those of the open
lists. -/
def Reading.Represents (reading : Reading) (lexemes : List Lexeme) : Prop :=
  ∃ closed opened, lexemes = closed ++ opened ∧ Spelled closed reading.done.reverse ∧
    Opened opened reading.pending

namespace Reading

variable {reading next : Reading} {lexemes : List Lexeme} {lexeme : Lexeme}

/-- At the beginning no lexeme has been passed. -/
theorem represents_empty : empty.Represents [] :=
  ⟨[], [], rfl, .nil, .nil⟩

/-- Placing a form adds its lexemes. -/
theorem Represents.place (h : reading.Represents lexemes) {first : Lexeme} {more : List Lexeme}
    {form : Form} (htokens : (first :: more).map Lexeme.token = form.tokens) :
    (reading.place first.start form).Represents (lexemes ++ first :: more) := by
  obtain ⟨pending, done⟩ := reading
  obtain ⟨closed, opened, rfl, hclosed, hopened⟩ := h
  cases hopened with
  | nil =>
    refine ⟨closed ++ first :: more, [], by simp only [List.append_nil], ?_, .nil⟩
    rw [Reading.place, List.reverse_cons]
    exact hclosed.concat htokens
  | @cons before items opening innermost outer hbefore hopening hstart hitems =>
    refine ⟨closed, before ++ opening :: (items ++ first :: more), by simp, hclosed,
      .cons hbefore hopening hstart ?_⟩
    rw [List.map_append, hitems, htokens, List.reverse_cons, Form.itemTokens_append]
    simp only [Form.itemTokens, List.append_nil]

/-- After a step, a reading stands for one more lexeme, unless it was a quote mark. -/
theorem Represents.step (h : reading.Represents lexemes) (hstep : reading.step lexeme = .ok next) :
    next.Represents (lexemes ++ significant [lexeme]) := by
  have hkept (hquote : lexeme.token ≠ .quote) : significant [lexeme] = [lexeme] := by
    simp [significant, hquote]
  unfold Reading.step at hstep
  split at hstep
  case h_1 htoken =>
    obtain rfl := Except.ok.inj hstep
    obtain ⟨closed, opened, rfl, hclosed, hopened⟩ := h
    rw [hkept (by simp [htoken]), List.append_assoc]
    exact ⟨closed, opened ++ [lexeme], rfl, hclosed, .cons hopened htoken rfl rfl⟩
  case h_2 htoken =>
    rw [hkept (by simp [htoken])]
    obtain ⟨pending, done⟩ := reading
    obtain ⟨closed, opened, rfl, hclosed, hopened⟩ := h
    cases hopened with
    | nil => cases hstep
    | @cons before items opening innermost outer hbefore hopening hstart hitems =>
      obtain rfl := Except.ok.inj hstep
      have houter : Represents ⟨outer, done⟩ (closed ++ before) :=
        ⟨closed, before, rfl, hclosed, hbefore⟩
      have htokens : (opening :: (items ++ [lexeme])).map Lexeme.token =
          (Form.list innermost.items.reverse).tokens := by
        simp only [List.map_cons, List.map_append, hopening, hitems, htoken, List.map_nil,
          Form.tokens, List.cons_append]
      have hplaced := houter.place htokens
      rw [hstart] at hplaced
      simpa using hplaced
  case h_3 htoken =>
    obtain rfl := Except.ok.inj hstep
    have hnone : significant [lexeme] = [] := by simp [significant, htoken]
    rwa [hnone, List.append_nil]
  case h_4 text htoken =>
    obtain rfl := Except.ok.inj hstep
    rw [hkept (by simp [htoken])]
    exact h.place (by rw [List.map_singleton, htoken, Form.tokens])
  case h_5 text htoken =>
    obtain rfl := Except.ok.inj hstep
    rw [hkept (by simp [htoken])]
    exact h.place (by rw [List.map_singleton, htoken, Form.tokens])
  case h_6 => cases hstep

/-- A run from the beginning stands for the significant lexemes that it has passed. -/
theorem represents_of_run (h : empty.run lexemes = .ok reading) :
    reading.Represents (significant lexemes) := by
  induction lexemes using List.reverseRecOn generalizing reading with
  | nil =>
    obtain rfl := Except.ok.inj h
    exact represents_empty
  | append_singleton lexemes lexeme ih =>
    obtain ⟨middle, hrun, hstep⟩ := run_concat_eq_ok_iff.mp h
    rw [significant, List.filter_append]
    exact (ih hrun).step hstep

/-! ## The number of open lists -/

/-- Placing a form opens and closes no list. -/
theorem length_pending_place (reading : Reading) (start : Position) (form : Form) :
    (reading.place start form).pending.length = reading.pending.length := by
  unfold place
  split
  · rfl
  · next hpending => simp [hpending]

/-- A step opens a list at an opening parenthesis and closes one at a closing parenthesis. -/
theorem length_pending_step (h : reading.step lexeme = .ok next) :
    next.pending.length + [lexeme.token].count .closing =
      reading.pending.length + [lexeme.token].count .opening := by
  unfold step at h
  split at h
  case h_1 htoken =>
    obtain rfl := Except.ok.inj h
    simp [htoken]
  case h_2 htoken =>
    split at h
    · exact nomatch h
    · next hpending =>
      obtain rfl := Except.ok.inj h
      simp [htoken, hpending, length_pending_place]
  case h_3 htoken =>
    obtain rfl := Except.ok.inj h
    simp [htoken]
  case h_4 text htoken =>
    obtain rfl := Except.ok.inj h
    simp [htoken, length_pending_place]
  case h_5 text htoken =>
    obtain rfl := Except.ok.inj h
    simp [htoken, length_pending_place]
  case h_6 => exact nomatch h

/-- The lists that are open are those that have been opened and not closed. -/
theorem length_pending_run (h : empty.run lexemes = .ok reading) :
    reading.pending.length + (lexemes.map Lexeme.token).count .closing =
      (lexemes.map Lexeme.token).count .opening := by
  induction lexemes using List.reverseRecOn generalizing reading with
  | nil =>
    obtain rfl := Except.ok.inj h
    rfl
  | append_singleton lexemes lexeme ih =>
    obtain ⟨middle, hrun, hstep⟩ := run_concat_eq_ok_iff.mp h
    have hbefore := ih hrun
    have hlast := length_pending_step hstep
    simp only [List.map_append, List.map_singleton, List.count_append]
    omega

end Reading

end Stubgen.Defs
