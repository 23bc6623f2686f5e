import Stubgen.Proofs.Text.Offset
import Stubgen.Wrapper.Expression

/-!
# Following assignments backwards

An expression that is returned by a wrapper is resolved through the assignments before it: each turn
looks for the last assignment to the expression in what is left of the text, takes its value for the
expression, and goes on before the assignment. Here the search is also told turn by turn in byte
positions, with every cut of the text checked. No cut is ever out of bounds or inside a character,
the position moves backwards in every turn, and so the search ends. What it finds is the end of a
chain of assignments, and it finds it whenever there is such a chain.
-/

namespace Stubgen.Wrapper

open Text (OccursAfter IsLastOccurrence byteLength takeBytes roundDown slice?)

/-- Nothing is left to resolve: the expression is a call or the empty result. -/
def IsResolved (expr : List Char) : Prop :=
  '(' ∈ expr ∨ expr = emptyResult

instance (expr : List Char) : Decidable (IsResolved expr) :=
  inferInstanceAs (Decidable (_ ∨ _))

/-- What an assignment to an expression begins with. -/
def assignmentTo (expr : List Char) : List Char :=
  expr ++ " = ".toList

theorem byteLength_assignmentTo (expr : List Char) :
    byteLength (assignmentTo expr) = byteLength expr + 3 :=
  Text.byteLength_append _ _

/-! ## Chains of assignments -/

/-- The last assignment to an expression that ends its equals sign at or before the byte position
`stop` begins at the position `start`. -/
structure IsLastAssigned (code expr : List Char) (stop start : Nat) : Prop where
  occurs : ∃ before, OccursAfter (assignmentTo expr) code before ∧ byteLength before = start
  ends_le : start + byteLength (assignmentTo expr) ≤ stop
  le_start : ∀ before, OccursAfter (assignmentTo expr) code before →
    byteLength before + byteLength (assignmentTo expr) ≤ stop → byteLength before ≤ start

/-- The text from a byte position to the next semicolon. -/
def IsValueAt (code : List Char) (start : Nat) (value : List Char) : Prop :=
  ∃ front rest, code = front ++ value ++ ';' :: rest ∧ byteLength front = start ∧ ';' ∉ value

/-- A chain of assignments leads from an expression to a resolved one. The assignment to the first
expression is the last before the position `stop`, and each further one is the last that ends before
the one that was followed. -/
inductive LeadsTo (code : List Char) : Nat → List Char → List Char → Prop where
  | resolved {stop : Nat} {expr : List Char} (hresolved : IsResolved expr) :
    LeadsTo code stop expr expr
  | assigned {stop start : Nat} {expr value result : List Char} (hopen : ¬IsResolved expr)
    (hsome : expr ≠ []) (hlast : IsLastAssigned code expr stop start)
    (hvalue : IsValueAt code (start + byteLength (assignmentTo expr)) value)
    (hrest : LeadsTo code (roundDown code (start - 1)) (Text.trim value) result) :
    LeadsTo code stop expr result

/-! ## The search in byte positions -/

/-- Where a search stands. -/
structure Search where
  /-- The expression that is to be resolved. -/
  expr : List Char
  /-- The byte position before which its assignment is looked for. -/
  stop : Nat

/-- What comes of a turn of a search. -/
inductive Turn where
  | ended (result? : Option (List Char))
  | onward (next : Search)
  /-- The text was to be cut out of bounds or inside a character. -/
  | miscut

namespace Search

/-- One turn of a search. -/
def turn (code : List Char) (search : Search) : Turn :=
  if IsResolved search.expr then .ended (some search.expr)
  else if search.expr = [] then .ended none
  else
    match slice? code 0 (roundDown code search.stop) with
    | none => .miscut
    | some window =>
      match (Text.cutLast? (assignmentTo search.expr) window).map fun cut => byteLength cut.1 with
      | none => .ended none
      | some start =>
        let valueStart := start + byteLength (assignmentTo search.expr)
        match slice? code valueStart (byteLength code) with
        | none => .miscut
        | some following =>
          match (Text.upTo? ';' following).map byteLength with
          | none => .ended none
          | some length =>
            match slice? code valueStart (valueStart + length) with
            | none => .miscut
            | some value => .onward ⟨Text.trim value, start - 1⟩

/-- What comes of a number of turns, at most. -/
def run (code : List Char) : Nat → Search → Turn
  | 0, search => .onward search
  | turns + 1, search =>
    match search.turn code with
    | .onward next => next.run code turns
    | .ended result? => .ended result?
    | .miscut => .miscut

/-- The search for what an expression at a byte position stands for. A position beyond the end of
the text stands for the end. -/
def start (code expr : List Char) (offset : Nat) : Search :=
  ⟨Text.trim expr, min offset (byteLength code)⟩

end Search

variable {code expr window before after value result : List Char} {stop start : Nat}

/-- An expression that is resolved stands for itself. -/
theorem resolveWithin_of_resolved (hresolved : IsResolved expr) :
    resolveWithin code expr window = some expr := by
  unfold resolveWithin
  exact if_pos hresolved

/-- An expression that is not resolved stands for what the value of its last assignment stands for
before that assignment. -/
theorem resolveWithin_of_open (hopen : ¬IsResolved expr) (hsome : expr ≠ []) :
    resolveWithin code expr window =
      (Text.cutLast? (assignmentTo expr) window).bind fun cut =>
        (Text.upTo? ';' (code.drop (cut.1.length + (assignmentTo expr).length))).bind fun value =>
          resolveWithin code (Text.trim value) cut.1.dropLast := by
  unfold IsResolved at hopen
  rw [resolveWithin, if_neg hopen, if_neg hsome]
  unfold assignmentTo
  split
  · next hcut => rw [hcut, Option.bind_none]
  · next before after hcut =>
    rw [hcut, Option.bind_some]
    split
    · next hvalue => rw [hvalue, Option.bind_none]
    · next value hvalue => rw [hvalue, Option.bind_some]

/-- An empty expression stands for nothing. -/
theorem resolveWithin_nil : resolveWithin code [] window = none := by
  unfold resolveWithin
  rw [if_neg (by decide), if_pos rfl]

/-! ## Assignments by byte positions -/

/-- The last assignment by byte positions is the last one in the text before the position. -/
theorem isLastAssigned_iff :
    IsLastAssigned code expr stop start ↔
      ∃ before, IsLastOccurrence (assignmentTo expr) (takeBytes stop code) before ∧
        byteLength before = start := by
  have hwithin (before : List Char) :
      OccursAfter (assignmentTo expr) (takeBytes stop code) before ↔
        OccursAfter (assignmentTo expr) code before ∧
          byteLength before + byteLength (assignmentTo expr) ≤ stop := by
    rw [OccursAfter, Text.prefix_takeBytes_iff, Text.byteLength_append]
    rfl
  constructor
  · rintro ⟨⟨before, hoccurs, rfl⟩, hends, hle⟩
    refine ⟨before, ⟨(hwithin before).mpr ⟨hoccurs, hends⟩, fun other hother => ?_⟩, rfl⟩
    obtain ⟨hotherOccurs, hotherEnds⟩ := (hwithin other).mp hother
    exact (Text.byteLength_le_iff_of_beginnings hotherOccurs.beginning hoccurs.beginning).mp
      (hle other hotherOccurs hotherEnds)
  · rintro ⟨before, ⟨hwindow, hlength⟩, rfl⟩
    obtain ⟨hoccurs, hends⟩ := (hwithin before).mp hwindow
    refine ⟨⟨before, hoccurs, rfl⟩, hends, fun other hother hotherEnds => ?_⟩
    exact (Text.byteLength_le_iff_of_beginnings hother.beginning hoccurs.beginning).mpr
      (hlength other ((hwithin other).mpr ⟨hother, hotherEnds⟩))

/-- The value of an assignment is the text up to the next semicolon. -/
theorem isValueAt_iff (hoccurs : OccursAfter (assignmentTo expr) code before) :
    IsValueAt code (byteLength before + byteLength (assignmentTo expr)) value ↔
      Text.upTo? ';' (code.drop (before.length + (assignmentTo expr).length)) = some value := by
  obtain ⟨after, rfl⟩ := hoccurs
  have hdrop : (before ++ assignmentTo expr ++ after).drop
      (before.length + (assignmentTo expr).length) = after := by
    rw [← List.length_append, List.drop_left]
  rw [hdrop, Text.upTo?_eq_some_iff, ← Text.byteLength_append]
  constructor
  · rintro ⟨front, rest, hcode, hlength, hvalue⟩
    have hbegins : front <+: before ++ assignmentTo expr ++ after := by
      rw [hcode, List.append_assoc]
      exact List.prefix_append _ _
    obtain rfl : front = before ++ assignmentTo expr :=
      Text.eq_of_byteLength_eq hbegins (List.prefix_append _ _) hlength
    rw [List.append_assoc _ value, List.append_cancel_left_eq] at hcode
    exact ⟨hvalue, rest, hcode⟩
  · rintro ⟨hvalue, rest, rfl⟩
    exact ⟨before ++ assignmentTo expr, rest, by simp, rfl, hvalue⟩

/-- After an assignment has been followed, what is left of the text is the text before it without
its last character. -/
theorem takeBytes_before (hoccurs : OccursAfter (assignmentTo expr) code before) :
    takeBytes (byteLength before - 1) code = before.dropLast :=
  Text.takeBytes_pred hoccurs.beginning

/-! ## What the search finds -/

/-- An expression that is not resolved stands for what the value of its last assignment stands for
before that assignment, told in byte positions. -/
theorem resolveWithin_eq_some_iff (hopen : ¬IsResolved expr) (hsome : expr ≠ []) :
    resolveWithin code expr (takeBytes stop code) = some result ↔
      ∃ start value, IsLastAssigned code expr stop start ∧
        IsValueAt code (start + byteLength (assignmentTo expr)) value ∧
        resolveWithin code (Text.trim value) (takeBytes (roundDown code (start - 1)) code) =
          some result := by
  simp only [resolveWithin_of_open hopen hsome, Option.bind_eq_some_iff, isLastAssigned_iff,
    Text.takeBytes_roundDown]
  -- Both sides speak of the same text before the assignment.
  have hcode {before : List Char}
      (hlast : IsLastOccurrence (assignmentTo expr) (takeBytes stop code) before) :
      OccursAfter (assignmentTo expr) code before :=
    hlast.occurs.of_takeBytes
  constructor
  · rintro ⟨⟨before, after⟩, hcut, value, hvalue, hresult⟩
    have hlast := Text.isLastOccurrence_of_cutLast? hcut
    refine ⟨byteLength before, value, ⟨before, hlast, rfl⟩, ?_, ?_⟩
    · exact (isValueAt_iff (hcode hlast)).mpr hvalue
    · rwa [takeBytes_before (hcode hlast)]
  · rintro ⟨_, value, ⟨before, hlast, rfl⟩, hvalue, hresult⟩
    obtain ⟨after, hwindow⟩ := hlast.occurs
    refine ⟨(before, after), Text.cutLast?_eq_some_iff.mpr ⟨hlast, hwindow⟩, value, ?_, ?_⟩
    · exact (isValueAt_iff (hcode hlast)).mp hvalue
    · rwa [takeBytes_before (hcode hlast)] at hresult

/-- Before an assignment that was followed there is less text than before. -/
theorem IsLastAssigned.roundDown_lt (h : IsLastAssigned code expr stop start) :
    roundDown code (start - 1) < stop := by
  have hle : roundDown code (start - 1) ≤ start - 1 := by
    rw [Text.roundDown_eq]
    exact Text.byteLength_takeBytes_le _ _
  have hends := h.ends_le
  have hlength := byteLength_assignmentTo expr
  omega

/-- What is found is what stands at the end of a chain of assignments. -/
theorem resolveWithin_iff_leadsTo :
    resolveWithin code expr (takeBytes stop code) = some result ↔
      LeadsTo code stop expr result := by
  constructor
  · intro h
    induction stop using Nat.strongRecOn generalizing expr with
    | ind stop ih =>
      by_cases hresolved : IsResolved expr
      · obtain rfl : expr = result := by simpa [resolveWithin_of_resolved hresolved] using h
        exact .resolved hresolved
      · have hsome : expr ≠ [] := by
          rintro rfl
          exact nomatch resolveWithin_nil.symm.trans h
        obtain ⟨start, value, hlast, hvalue, hrest⟩ :=
          (resolveWithin_eq_some_iff hresolved hsome).mp h
        exact .assigned hresolved hsome hlast hvalue (ih _ hlast.roundDown_lt hrest)
  · intro h
    induction h with
    | resolved hresolved => exact resolveWithin_of_resolved hresolved
    | assigned hopen hsome hlast hvalue hrest ih =>
      exact (resolveWithin_eq_some_iff hopen hsome).mpr ⟨_, _, hlast, hvalue, ih⟩

/-- What stands at the end of a chain of assignments is resolved. -/
theorem LeadsTo.isResolved (h : LeadsTo code stop expr result) : IsResolved result := by
  induction h with
  | resolved hresolved => exact hresolved
  | assigned _ _ _ _ _ ih => exact ih

/-! ## The turns of the search -/

namespace Search

/-- A turn cuts the text at boundaries only, and it does what the search does in the text before its
position. -/
theorem turn_eq (code : List Char) (search : Search) :
    search.turn code =
      if IsResolved search.expr then .ended (some search.expr)
      else if search.expr = [] then .ended none
      else
        match Text.cutLast? (assignmentTo search.expr) (takeBytes search.stop code) with
        | none => .ended none
        | some (before, _) =>
          match Text.upTo? ';' (code.drop (before.length + (assignmentTo search.expr).length)) with
          | none => .ended none
          | some value => .onward ⟨Text.trim value, byteLength before - 1⟩ := by
  unfold turn
  split
  · rfl
  split
  · rfl
  rw [Text.slice?_roundDown]
  simp only
  cases hcut : Text.cutLast? (assignmentTo search.expr) (takeBytes search.stop code) with
  | none => rfl
  | some cut =>
    obtain ⟨before, skipped⟩ := cut
    obtain ⟨after, hcode⟩ : OccursAfter (assignmentTo search.expr) code before :=
      (Text.isLastOccurrence_of_cutLast? hcut).occurs.of_takeBytes
    have hfollowing : slice? code (byteLength before + byteLength (assignmentTo search.expr))
        (byteLength code) = some after := by
      have hslice := Text.slice?_append (before ++ assignmentTo search.expr) after []
      rwa [List.append_nil, ← Text.byteLength_append, hcode, Text.byteLength_append] at hslice
    have hdrop : code.drop (before.length + (assignmentTo search.expr).length) = after := by
      rw [← hcode, ← List.length_append, List.drop_left]
    simp only [Option.map_some, hfollowing, hdrop]
    cases hvalue : Text.upTo? ';' after with
    | none => rfl
    | some value =>
      obtain ⟨_, rest, rfl⟩ := Text.upTo?_eq_some_iff.mp hvalue
      have hslice := Text.slice?_append (before ++ assignmentTo search.expr) value (';' :: rest)
      rw [List.append_assoc _ value, hcode, Text.byteLength_append] at hslice
      simp only [Option.map_some, hslice]

/-- No turn cuts the text out of bounds or inside a character. -/
theorem turn_ne_miscut (code : List Char) (search : Search) : search.turn code ≠ .miscut := by
  rw [turn_eq]
  split
  · simp
  split
  · simp
  split
  · simp
  split <;> simp

/-- Nor does any number of turns. -/
theorem run_ne_miscut (code : List Char) (turns : Nat) (search : Search) :
    search.run code turns ≠ .miscut := by
  induction turns generalizing search with
  | zero => exact nofun
  | succ turns ih =>
    unfold run
    split
    · next next _ => exact ih next
    · exact nofun
    · next hmiscut => exact absurd hmiscut (turn_ne_miscut code search)

/-- A search ends within one turn more than its position has bytes before it, and it finds what the
search in the text before its position finds. -/
theorem run_of_stop_lt {turns : Nat} {search : Search} (h : search.stop < turns) :
    search.run code turns =
      .ended (resolveWithin code search.expr (takeBytes search.stop code)) := by
  induction turns generalizing search with
  | zero => exact absurd h (Nat.not_lt_zero _)
  | succ turns ih =>
    rw [run, turn_eq]
    by_cases hresolved : IsResolved search.expr
    · rw [if_pos hresolved, resolveWithin_of_resolved hresolved]
    · by_cases hempty : search.expr = []
      · rw [if_neg hresolved, if_pos hempty, hempty, resolveWithin_nil]
      · rw [if_neg hresolved, if_neg hempty, resolveWithin_of_open hresolved hempty]
        cases hcut : Text.cutLast? (assignmentTo search.expr) (takeBytes search.stop code) with
        | none => rfl
        | some cut =>
          obtain ⟨before, skipped⟩ := cut
          have hlast := Text.isLastOccurrence_of_cutLast? hcut
          have hends := (isLastAssigned_iff.mpr ⟨before, hlast, rfl⟩).ends_le
          have hlength := byteLength_assignmentTo search.expr
          simp only [Option.bind_some]
          cases Text.upTo? ';' (code.drop (before.length + (assignmentTo search.expr).length)) with
          | none => rfl
          | some value =>
            have hless : byteLength before - 1 < turns := by omega
            have hnext := @ih ⟨Text.trim value, byteLength before - 1⟩ hless
            simp only [hnext, Option.bind_some]
            rw [takeBytes_before hlast.occurs.of_takeBytes]

end Search

/-- At every byte position, the search for what an expression stands for never cuts the text out of
bounds or inside a character, and it ends. It finds what stands at the end of a chain of
assignments, if there is such a chain, and so never a null pointer. -/
theorem resolve?_iff_leadsTo (code expr : List Char) (offset : Nat) :
    (∀ turns, (Search.start code expr offset).run code turns ≠ .miscut) ∧
      (Search.start code expr offset).run code ((Search.start code expr offset).stop + 1) =
        .ended (resolve? code expr offset) ∧
      (∀ result, resolve? code expr offset = some result ↔
        LeadsTo code (roundDown code (min offset (byteLength code))) (Text.trim expr) result) ∧
      resolve? code expr offset ≠ some "NULL".toList := by
  have hwindow : takeBytes (roundDown code (min offset (byteLength code))) code =
      takeBytes offset code := by
    rw [Text.takeBytes_roundDown, Text.takeBytes_min]
  have hchain (result : List Char) : resolve? code expr offset = some result ↔
      LeadsTo code (roundDown code (min offset (byteLength code))) (Text.trim expr) result := by
    rw [← resolveWithin_iff_leadsTo, hwindow]
    rfl
  refine ⟨fun turns => Search.run_ne_miscut code turns _, ?_, hchain, fun hnull => ?_⟩
  · rw [Search.run_of_stop_lt (Nat.lt_succ_self _)]
    simp only [Search.start, Text.takeBytes_min]
    rfl
  · exact absurd ((hchain _).mp hnull).isResolved (by decide)

end Stubgen.Wrapper
