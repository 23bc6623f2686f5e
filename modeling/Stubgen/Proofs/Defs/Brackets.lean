import Stubgen.Defs.Form

/-!
# Balanced tokens

Reading from the left, the tokens of a well-written text never close more lists than they have
opened, and in the end all lists are closed. This file proves that the tokens of forms are
balanced in this sense, and that quote marks play no part in it.
-/

namespace Stubgen.Defs

/-- No beginning of the tokens closes more lists than it opens. -/
def Nests (tokens : List Token) : Prop :=
  ∀ front, front <+: tokens → front.count .closing ≤ front.count .opening

/-- The tokens close all lists that they open, and no others. -/
structure Balanced (tokens : List Token) : Prop where
  nests : Nests tokens
  settled : tokens.count .opening = tokens.count .closing

/-- The tokens have no invalid one and close no list that they have not opened. -/
def Readable (tokens : List Token) : Prop :=
  (∀ text, .invalid text ∉ tokens) ∧ Nests tokens

/-- No token closes no list. -/
theorem nests_nil : Nests [] := by
  intro front hfront
  rw [List.prefix_nil.mp hfront]
  exact Nat.le_refl _

/-- One more token closes at most a list that is still open. -/
theorem nests_concat_iff {tokens : List Token} {token : Token} :
    Nests (tokens ++ [token]) ↔
      Nests tokens ∧ (token = .closing → tokens.count .closing < tokens.count .opening) := by
  constructor
  · intro h
    refine ⟨fun front hfront => h front (hfront.trans (List.prefix_append ..)), ?_⟩
    rintro rfl
    simpa [Nat.succ_le_iff] using h _ (List.prefix_refl _)
  · rintro ⟨hnests, hclosing⟩ front hfront
    rcases List.prefix_concat_iff.mp hfront with rfl | hfront
    · by_cases htoken : token = .closing
      · subst htoken
        simpa [Nat.succ_le_iff] using hclosing rfl
      · have hcount := hnests tokens (List.prefix_refl _)
        have hnone : List.count Token.closing [token] = 0 := by
          simpa [List.count_singleton] using htoken
        simp only [List.count_append, hnone]
        omega
    · exact hnests front hfront

/-- What one more token may be for the tokens to stay readable. -/
theorem readable_concat_iff {tokens : List Token} {token : Token} :
    Readable (tokens ++ [token]) ↔ Readable tokens ∧ (∀ text, token ≠ .invalid text) ∧
      (token = .closing → tokens.count .closing < tokens.count .opening) := by
  simp only [Readable, nests_concat_iff, List.mem_append, List.mem_singleton, not_or,
    forall_and, ne_eq, eq_comm, and_assoc]
  constructor
  · rintro ⟨hold, hnew, hnests, hclosing⟩
    exact ⟨hold, hnests, hnew, hclosing⟩
  · rintro ⟨hold, hnests, hnew, hclosing⟩
    exact ⟨hold, hnew, hnests, hclosing⟩

/-! ## The tokens of forms -/

/-- No forms have no tokens, which are balanced. -/
theorem balanced_nil : Balanced [] :=
  ⟨nests_nil, rfl⟩

/-- A token that is no parenthesis is balanced. -/
theorem balanced_single {token : Token} (hopening : token ≠ .opening)
    (hclosing : token ≠ .closing) : Balanced [token] := by
  refine ⟨nests_concat_iff.mpr ⟨nests_nil, fun h => absurd h hclosing⟩, ?_⟩
  simp [hopening, hclosing]

/-- Balanced tokens may follow each other. -/
theorem Balanced.append {a b : List Token} (ha : Balanced a) (hb : Balanced b) :
    Balanced (a ++ b) := by
  refine ⟨fun front hfront => ?_, by simp [ha.settled, hb.settled]⟩
  rcases List.prefix_or_prefix_of_prefix hfront (List.prefix_append a b) with hfront' | hfront'
  · exact ha.nests front hfront'
  · obtain ⟨part, rfl⟩ := hfront'
    have hpart := hb.nests part ((List.prefix_append_right_inj a).mp hfront)
    simp only [List.count_append, ha.settled]
    omega

/-- Balanced tokens may be put between parentheses. -/
theorem Balanced.enclosed {tokens : List Token} (h : Balanced tokens) :
    Balanced (.opening :: tokens ++ [.closing]) := by
  have hsettled := h.settled
  refine ⟨nests_concat_iff.mpr ⟨fun front hfront => ?_, fun _ => ?_⟩, ?_⟩
  · rcases List.prefix_cons_iff.mp hfront with rfl | ⟨inner, rfl, hinner⟩
    · exact Nat.le_refl _
    · have hcount := h.nests inner hinner
      simp only [List.count_cons_self, List.count_cons_of_ne, ne_eq, reduceCtorEq,
        not_false_eq_true]
      omega
  · simp [hsettled]
  · simp [hsettled]

mutual

/-- The tokens of a form are balanced. -/
theorem Form.balanced_tokens : ∀ form : Form, Balanced form.tokens
  | .atom _ => balanced_single nofun nofun
  | .str _ => balanced_single nofun nofun
  | .list items => (balanced_itemTokens items).enclosed

/-- The tokens of forms, one after the other, are balanced. -/
theorem Form.balanced_itemTokens : ∀ forms : List Form, Balanced (Form.itemTokens forms)
  | [] => balanced_nil
  | form :: rest => (balanced_tokens form).append (balanced_itemTokens rest)

end

/-- The tokens of forms are the tokens of the first ones, followed by those of the others. -/
theorem Form.itemTokens_append (a b : List Form) :
    itemTokens (a ++ b) = itemTokens a ++ itemTokens b := by
  induction a with
  | nil => rfl
  | cons form a ih => simp only [List.cons_append, itemTokens, ih, List.append_assoc]

/-! ## Quote marks -/

/-- Tokens are balanced if they are so without their quote marks. -/
theorem Balanced.of_unquoted {tokens : List Token} (h : Balanced (tokens.filter (· ≠ .quote))) :
    Balanced tokens := by
  have hcount (part : List Token) (token : Token) (htoken : token ≠ .quote) :
      (part.filter (· ≠ .quote)).count token = part.count token :=
    List.count_filter (by simpa using htoken)
  refine ⟨fun front hfront => ?_, ?_⟩
  · have hle := h.nests _ (hfront.filter _)
    rwa [hcount front .closing nofun, hcount front .opening nofun] at hle
  · have heq := h.settled
    rwa [hcount tokens .closing nofun, hcount tokens .opening nofun] at heq

end Stubgen.Defs
