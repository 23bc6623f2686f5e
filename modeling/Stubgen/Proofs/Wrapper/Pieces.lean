import Stubgen.Proofs.Text.Nesting
import Stubgen.Wrapper.Format

/-!
# The pieces of a format

Outside of all brackets a format consists of groups and of single characters. Brackets that close
nothing stand between the pieces, and a group that is not closed is none. Formats can be put
together from formats whose brackets are all closed, and so can their pieces.

A format is scanned character by character with a counter of open brackets and a buffer for what
stands behind the first of them. This file proves that such a scan does exactly what adding one
piece after the other does, whatever is made of the pieces.
-/

namespace Stubgen.Wrapper

open Text (Brackets)

/-- The brackets of formats. Those of all kinds count alike. -/
def formatBrackets : Brackets where
  opens := isOpening
  closes := isClosing
  disjoint c hopens := by
    simp only [isOpening, Bool.or_eq_true, decide_eq_true_eq] at hopens
    rcases hopens with (rfl | rfl) | rfl <;> decide

/-- What stands in a format outside of all brackets. -/
inductive Piece where
  /-- What stands between two brackets, and the one that ends the group. -/
  | group (inside : List Char) (closer : Char)
  /-- A character that is no bracket. -/
  | single (c : Char)

/-- The pieces of what follows in a format, when `depth` brackets are open and `inside` stands
behind the first of them. -/
def piecesFrom : Nat → List Char → List Char → List Piece
  | _, _, [] => []
  | 0, inside, c :: cs =>
    if isOpening c then piecesFrom 1 inside cs
    else if isClosing c then piecesFrom 0 inside cs
    else .single c :: piecesFrom 0 inside cs
  | depth + 1, inside, c :: cs =>
    if isClosing c ∧ depth = 0 then .group inside c :: piecesFrom 0 [] cs
    else piecesFrom (formatBrackets.move (depth + 1) c) (inside ++ [c]) cs

/-- The pieces of a format. -/
def pieces (format : List Char) : List Piece :=
  piecesFrom 0 [] format

variable {format front rest inside : List Char} {depth : Nat} {opener closer c : Char}

/-! ## Groups -/

/-- A group is cut off at the bracket that closes more than were opened. -/
theorem read?_eq_cut? (depth : Nat) (format : List Char) :
    Group.read? depth format =
      (formatBrackets.cut? depth format).map fun cut => ⟨cut.1, cut.2.1, cut.2.2⟩ := by
  induction format generalizing depth with
  | nil => rfl
  | cons c cs ih =>
    unfold Group.read? Brackets.cut? Brackets.move
    by_cases hopens : isOpening c
    · have hcloses : isClosing c = false := formatBrackets.disjoint c hopens
      simp [formatBrackets, hopens, hcloses, ih, Function.comp_def]
    · by_cases hcloses : isClosing c
      · cases depth with
        | zero => simp [formatBrackets, hopens, hcloses]
        | succ depth => simp [formatBrackets, hopens, hcloses, ih, Function.comp_def]
      · simp [formatBrackets, hopens, hcloses, ih, Function.comp_def]

/-- The first piece behind an open bracket is the group that it begins. -/
theorem piecesFrom_succ (depth : Nat) (inside format : List Char) :
    piecesFrom (depth + 1) inside format =
      match formatBrackets.cut? depth format with
      | none => []
      | some (more, closer, rest) => .group (inside ++ more) closer :: pieces rest := by
  induction format generalizing depth inside with
  | nil => rfl
  | cons c cs ih =>
    rw [piecesFrom, Brackets.cut?]
    split
    · next hends =>
      rw [if_pos (show formatBrackets.closes c = true ∧ depth = 0 from hends)]
      exact congrArg (Piece.group · c :: pieces cs) (List.append_nil inside).symm
    · next hends =>
      rw [if_neg (show ¬(formatBrackets.closes c = true ∧ depth = 0) from hends)]
      have hmove : formatBrackets.move (depth + 1) c = formatBrackets.move depth c + 1 := by
        unfold Brackets.move
        split
        · rfl
        split
        · next hcloses =>
          have hpos : depth ≠ 0 := fun hzero => hends ⟨hcloses, hzero⟩
          omega
        · rfl
      rw [hmove, ih]
      cases formatBrackets.cut? (formatBrackets.move depth c) cs with
      | none => rfl
      | some cut =>
        exact congrArg (Piece.group · cut.2.1 :: pieces cut.2.2)
          (List.append_assoc inside [c] cut.1)

/-- What stands behind an opening bracket is read as a group. -/
theorem pieces_cons_of_opening (hopens : isOpening opener = true) (format : List Char) :
    pieces (opener :: format) =
      match Group.read? 0 format with
      | none => []
      | some group => .group group.inside group.closer :: pieces group.rest := by
  rw [pieces, piecesFrom, if_pos hopens, piecesFrom_succ, read?_eq_cut?]
  cases formatBrackets.cut? 0 format with
  | none => rfl
  | some cut => rfl

/-- A bracket that closes nothing is no piece. -/
theorem pieces_cons_of_closing (hopens : ¬isOpening c = true) (hcloses : isClosing c = true)
    (format : List Char) : pieces (c :: format) = pieces format := by
  rw [pieces, piecesFrom, if_neg hopens, if_pos hcloses, pieces]

/-- A character that is no bracket is a piece. -/
theorem pieces_cons_of_plain (hopens : ¬isOpening c = true) (hcloses : ¬isClosing c = true)
    (format : List Char) : pieces (c :: format) = .single c :: pieces format := by
  rw [pieces, piecesFrom, if_neg hopens, if_neg hcloses, pieces]

/-- A text between brackets is a group if its own brackets are all closed. -/
theorem pieces_enclosed (hsettles : formatBrackets.Settles 0 inside)
    (hopens : isOpening opener = true) (hcloses : isClosing closer = true) :
    pieces (opener :: inside ++ [closer]) = [.group inside closer] := by
  have hcut : formatBrackets.cut? 0 (inside ++ [closer]) = some (inside, closer, []) :=
    Brackets.cut?_eq_some_iff.mpr ⟨rfl, hcloses, hsettles⟩
  rw [List.cons_append, pieces_cons_of_opening hopens, read?_eq_cut?, hcut]
  rfl

/-- A bracket that is not closed ends the pieces. -/
theorem pieces_unclosed (hnests : formatBrackets.Nests 0 inside)
    (hopens : isOpening opener = true) : pieces (opener :: inside) = [] := by
  rw [pieces_cons_of_opening hopens, read?_eq_cut?, Brackets.cut?_eq_none_iff.mpr hnests]
  rfl

/-- A group is shorter than what it stands in. -/
theorem length_lt_of_group_mem (hmem : .group inside closer ∈ piecesFrom depth front format) :
    inside.length < front.length + format.length := by
  induction format generalizing depth front with
  | nil =>
    rw [piecesFrom] at hmem
    exact absurd hmem List.not_mem_nil
  | cons c cs ih =>
    rw [List.length_cons]
    cases depth with
    | zero =>
      rw [piecesFrom] at hmem
      split at hmem
      · have hlt := ih hmem
        omega
      · split at hmem
        · have hlt := ih hmem
          omega
        · have hlt := ih ((List.mem_cons.mp hmem).resolve_left nofun)
          omega
    | succ depth =>
      rw [piecesFrom] at hmem
      split at hmem
      · rcases List.mem_cons.mp hmem with heq | hrest
        · obtain ⟨rfl, -⟩ := Piece.group.inj heq
          omega
        · have hlt := ih hrest
          rw [List.length_nil] at hlt
          omega
      · have hlt := ih hmem
        rw [List.length_append, List.length_singleton] at hlt
        omega

/-! ## Composition -/

/-- The pieces of what follows a format whose brackets are all closed are its own. -/
theorem piecesFrom_append (hstart : depth = 0 → inside = [])
    (hends : formatBrackets.depthAfter depth front = 0) (rest : List Char) :
    piecesFrom depth inside (front ++ rest) = piecesFrom depth inside front ++ pieces rest := by
  induction front generalizing depth inside with
  | nil =>
    obtain rfl : depth = 0 := hends
    rw [hstart rfl, piecesFrom]
    rfl
  | cons c cs ih =>
    rw [Brackets.depthAfter_cons] at hends
    rw [List.cons_append]
    cases depth with
    | zero =>
      obtain rfl := hstart rfl
      rw [piecesFrom, piecesFrom]
      split
      · next hopens =>
        have hmove : formatBrackets.move 0 c = 1 := Brackets.move_of_opens hopens
        exact ih nofun (hmove ▸ hends)
      · next hopens =>
        rw [Brackets.move_zero_of_not_opens hopens] at hends
        rw [ih (fun _ => rfl) hends]
        split
        · rfl
        · rfl
    | succ depth =>
      rw [piecesFrom, piecesFrom]
      split
      · next hcut =>
        obtain ⟨hcloses, rfl⟩ := hcut
        rw [Brackets.move_of_closes hcloses] at hends
        rw [ih (fun _ => rfl) hends, List.cons_append]
      · next hcut =>
        refine ih (fun hzero => ?_) hends
        -- Only the bracket that ends the group could take the counter to zero.
        unfold Brackets.move at hzero
        split at hzero
        · exact nomatch hzero
        split at hzero
        · next hcloses => exact absurd ⟨hcloses, hzero⟩ hcut
        · exact nomatch hzero

/-- The pieces of two formats, one after the other, are those of the first and then those of the
second, if all brackets of the first are closed. -/
theorem pieces_append (hends : formatBrackets.depthAfter 0 front = 0) (rest : List Char) :
    pieces (front ++ rest) = pieces front ++ pieces rest :=
  piecesFrom_append (fun _ => rfl) hends rest

/-- The single characters among the pieces stand outside of all brackets. -/
theorem holdsOutside_of_single_mem (hmem : .single c ∈ piecesFrom depth inside format) :
    formatBrackets.HoldsOutside depth format c := by
  induction format generalizing depth inside with
  | nil =>
    rw [piecesFrom] at hmem
    exact absurd hmem List.not_mem_nil
  | cons d cs ih =>
    rw [Brackets.holdsOutside_cons_iff]
    cases depth with
    | zero =>
      rw [piecesFrom] at hmem
      split at hmem
      · next hopens =>
        have hmove : formatBrackets.move 0 d = 1 := Brackets.move_of_opens hopens
        exact .inr (hmove ▸ ih hmem)
      · next hopens =>
        rw [Brackets.move_zero_of_not_opens hopens]
        split at hmem
        · exact .inr (ih hmem)
        · rcases List.mem_cons.mp hmem with heq | hrest
          · exact .inl ⟨(Piece.single.inj heq).symm, rfl⟩
          · exact .inr (ih hrest)
    | succ depth =>
      rw [piecesFrom] at hmem
      split at hmem
      · next hends =>
        obtain ⟨hcloses, rfl⟩ := hends
        have hmove : formatBrackets.move 1 d = 0 := Brackets.move_of_closes hcloses
        rw [hmove]
        exact .inr (ih ((List.mem_cons.mp hmem).resolve_left nofun))
      · exact .inr (ih hmem)

/-! ## Scanning character by character -/

/-- Where the scan of a format stands. -/
structure Scan (α : Type) where
  /-- What has been made of the pieces before. -/
  made : α
  /-- How many brackets are open. -/
  depth : Nat
  /-- What stands behind the first open bracket. -/
  inside : List Char

section Scan

variable {α : Type} {full : α → Bool} {add : α → Piece → Option α}

/-- Adds one piece after the other, as long as there is need for more. -/
def addAll (full : α → Bool) (add : α → Piece → Option α) : α → List Piece → Option α
  | made, [] => some made
  | made, piece :: pieces =>
    if full made then some made
    else (add made piece).bind fun next => addAll full add next pieces

/-- A scan reads a character. What a finished piece adds is told by `add`, which may fail. -/
def Scan.step (add : α → Piece → Option α) (scan : Scan α) (c : Char) : Option (Scan α) :=
  if isOpening c then
    let inside := if 0 < scan.depth then scan.inside ++ [c] else scan.inside
    some { scan with depth := scan.depth + 1, inside }
  else if isClosing c then
    match scan.depth with
    | 0 => some scan
    | 1 => (add scan.made (.group scan.inside c)).map fun made => ⟨made, 0, []⟩
    | depth + 2 => some { scan with depth := depth + 1, inside := scan.inside ++ [c] }
  else if 0 < scan.depth then some { scan with inside := scan.inside ++ [c] }
  else (add scan.made (.single c)).map fun made => { scan with made }

/-- A scan reads the rest of a format, or stops before a character if nothing more is needed. -/
def Scan.run (full : α → Bool) (add : α → Piece → Option α) (scan : Scan α) :
    List Char → Option α
  | [] => some scan.made
  | c :: cs =>
    if full scan.made then some scan.made
    else (scan.step add c).bind fun next => next.run full add cs

/-- When nothing more is needed, nothing is added. -/
theorem addAll_of_full {made : α} (hfull : full made = true) (pieces : List Piece) :
    addAll full add made pieces = some made := by
  cases pieces with
  | nil => rfl
  | cons piece pieces => exact if_pos hfull

/-- A scan does what adding one piece after the other does. -/
theorem Scan.run_eq (scan : Scan α) (format : List Char) :
    scan.run full add format =
      addAll full add scan.made (piecesFrom scan.depth scan.inside format) := by
  induction format generalizing scan with
  | nil =>
    rw [run, piecesFrom]
    rfl
  | cons c cs ih =>
    obtain ⟨made, depth, inside⟩ := scan
    rw [run]
    split
    · next hfull => exact (addAll_of_full hfull _).symm
    · next hfull =>
      have hadd (piece : Piece) (pieces : List Piece) :
          addAll full add made (piece :: pieces) =
            (add made piece).bind fun next => addAll full add next pieces :=
        if_neg hfull
      unfold step
      cases depth with
      | zero =>
        rw [piecesFrom]
        split
        · exact ih ⟨made, 1, inside⟩
        split
        · exact ih ⟨made, 0, inside⟩
        · rw [if_neg (Nat.lt_irrefl 0), hadd, Option.bind_map]
          exact Option.bind_congr fun next _ => ih ⟨next, 0, inside⟩
      | succ depth =>
        rw [piecesFrom]
        by_cases hopens : isOpening c = true
        · have hcloses : ¬isClosing c = true := fun hcloses =>
            nomatch (formatBrackets.disjoint c hopens).symm.trans hcloses
          have hmove : formatBrackets.move (depth + 1) c = depth + 2 :=
            Brackets.move_of_opens hopens
          rw [if_pos hopens, if_pos depth.succ_pos, if_neg fun hends => hcloses hends.1, hmove]
          exact ih ⟨made, depth + 2, inside ++ [c]⟩
        rw [if_neg hopens]
        by_cases hcloses : isClosing c = true
        · rw [if_pos hcloses]
          cases depth with
          | zero =>
            rw [if_pos ⟨hcloses, rfl⟩, hadd, Option.bind_map]
            exact Option.bind_congr fun next _ => ih ⟨next, 0, []⟩
          | succ depth =>
            have hmove : formatBrackets.move (depth + 1 + 1) c = depth + 1 :=
              Brackets.move_of_closes hcloses
            have hends : ¬(isClosing c = true ∧ depth + 1 = 0) := fun hends => nomatch hends.2
            rw [if_neg hends, hmove]
            exact ih ⟨made, depth + 1, inside ++ [c]⟩
        · have hmove : formatBrackets.move (depth + 1) c = depth + 1 :=
            Brackets.move_of_plain hopens hcloses
          rw [if_neg hcloses, if_pos depth.succ_pos, if_neg fun hends => hcloses hends.1, hmove]
          exact ih ⟨made, depth + 1, inside ++ [c]⟩

end Scan

end Stubgen.Wrapper
