import Stubgen.Text.Search
import Mathlib.Data.List.Basic

/-!
# Where a pattern occurs

A pattern occurs in a text after some beginning of it, and may do so after several. A search for
the first occurrence finds the one after the shortest beginning, and a search for the last one finds
the one after the longest.
-/

namespace Stubgen.Text

variable {pattern text before after : List Char}

/-- The pattern occurs in the text after the given beginning. -/
def OccursAfter (pattern text before : List Char) : Prop :=
  before ++ pattern <+: text

/-- An occurrence stands at the very beginning or in what follows the first character. -/
theorem occursAfter_cons_iff {c : Char} {cs : List Char} :
    OccursAfter pattern (c :: cs) before ↔
      before = [] ∧ pattern <+: c :: cs ∨
        ∃ tail, before = c :: tail ∧ OccursAfter pattern cs tail := by
  cases before with
  | nil => simp [OccursAfter]
  | cons d tail =>
    simp only [OccursAfter, List.cons_append, List.cons_prefix_cons, reduceCtorEq, false_and,
      false_or, List.cons.injEq]
    constructor
    · rintro ⟨rfl, htail⟩
      exact ⟨tail, ⟨rfl, rfl⟩, htail⟩
    · rintro ⟨_, ⟨rfl, rfl⟩, htail⟩
      exact ⟨rfl, htail⟩

/-- In the empty text only the empty pattern occurs. -/
theorem occursAfter_nil_iff : OccursAfter pattern [] before ↔ before = [] ∧ pattern = [] := by
  simp [OccursAfter]

/-- What stands before an occurrence is a beginning of the text. -/
theorem OccursAfter.beginning (h : OccursAfter pattern text before) : before <+: text :=
  (List.prefix_append before pattern).trans h

/-- An occurrence in a text is one in every longer text. -/
theorem OccursAfter.append (h : OccursAfter pattern text before) (extra : List Char) :
    OccursAfter pattern (text ++ extra) before :=
  List.IsPrefix.trans h (List.prefix_append text extra)

/-- An occurrence that ends within a beginning of the text is one in this beginning. -/
theorem OccursAfter.within {front : List Char} (h : OccursAfter pattern text before)
    (hfront : front <+: text) (hle : before.length + pattern.length ≤ front.length) :
    OccursAfter pattern front before :=
  List.prefix_of_prefix_length_le h hfront (by rwa [List.length_append])

/-- What occurs in the rest of a text occurs in the text. -/
theorem OccursAfter.append_left (front : List Char) (h : OccursAfter pattern text before) :
    OccursAfter pattern (front ++ text) (front ++ before) := by
  rw [OccursAfter, List.append_assoc]
  exact (List.prefix_append_right_inj front).mpr h

/-- An occurrence that does not begin before the rest of a text is one in the rest. -/
theorem OccursAfter.exists_of_append {front : List Char}
    (h : OccursAfter pattern (front ++ text) before) (hle : front.length ≤ before.length) :
    ∃ tail, before = front ++ tail ∧ OccursAfter pattern text tail := by
  obtain ⟨tail, rfl⟩ : front <+: before :=
    List.prefix_of_prefix_length_le (List.prefix_append front text) h.beginning hle
  rw [OccursAfter, List.append_assoc, List.prefix_append_right_inj] at h
  exact ⟨tail, rfl, h⟩

/-- Two occurrences after beginnings of one length are the same. -/
theorem OccursAfter.eq_of_length_eq {other : List Char} (h : OccursAfter pattern text before)
    (hother : OccursAfter pattern text other) (hlength : before.length = other.length) :
    before = other := by
  have hwithin :=
    List.prefix_of_prefix_length_le h.beginning hother.beginning (Nat.le_of_eq hlength)
  exact hwithin.eq_of_length hlength

/-- Of two patterns that overlap in a text, one ends where the other begins, or holds all of it. -/
theorem OccursAfter.overlap {other second : List Char} (h : OccursAfter pattern text before)
    (hsecond : OccursAfter second text other) (hle : before.length ≤ other.length)
    (hlt : other.length < before.length + pattern.length) :
    pattern.drop (other.length - before.length) <+: second ∨
      second <+: pattern.drop (other.length - before.length) := by
  obtain ⟨rest, rfl⟩ := h.beginning
  -- Behind the first beginning, the second pattern stands after a beginning of the first one.
  have hpattern : pattern <+: rest := (List.prefix_append_right_inj before).mp h
  obtain ⟨front, rfl, hfront⟩ := hsecond.exists_of_append hle
  have hlength : front.length ≤ pattern.length := by
    rw [List.length_append] at hlt
    omega
  obtain ⟨tail, rfl⟩ := List.prefix_of_prefix_length_le hfront.beginning hpattern hlength
  rw [List.length_append, Nat.add_sub_cancel_left, List.drop_left]
  rcases List.prefix_or_prefix_of_prefix hpattern hfront with hin | hin
  · exact .inl ((List.prefix_append_right_inj front).mp hin)
  · exact .inr ((List.prefix_append_right_inj front).mp hin)

/-- The pattern occurs after a beginning and after no shorter one. -/
structure IsFirstOccurrence (pattern text before : List Char) : Prop where
  occurs : OccursAfter pattern text before
  le_length : ∀ other, OccursAfter pattern text other → before.length ≤ other.length

/-- The pattern occurs after a beginning and after no longer one. -/
structure IsLastOccurrence (pattern text before : List Char) : Prop where
  occurs : OccursAfter pattern text before
  length_le : ∀ other, OccursAfter pattern text other → other.length ≤ before.length

/-- There is only one first occurrence. -/
theorem IsFirstOccurrence.unique {other : List Char} (h : IsFirstOccurrence pattern text before)
    (hother : IsFirstOccurrence pattern text other) : before = other :=
  h.occurs.eq_of_length_eq hother.occurs
    (Nat.le_antisymm (h.le_length other hother.occurs) (hother.le_length before h.occurs))

/-- There is only one last occurrence. -/
theorem IsLastOccurrence.unique {other : List Char} (h : IsLastOccurrence pattern text before)
    (hother : IsLastOccurrence pattern text other) : before = other :=
  h.occurs.eq_of_length_eq hother.occurs
    (Nat.le_antisymm (hother.length_le before h.occurs) (h.length_le other hother.occurs))

/-! ## The first occurrence -/

/-- A search for the first occurrence finds nothing exactly if there is none. -/
theorem cutFirst?_eq_none_iff :
    cutFirst? pattern text = none ↔ ∀ before, ¬OccursAfter pattern text before := by
  induction text with
  | nil =>
    simp only [cutFirst?, occursAfter_nil_iff]
    cases pattern <;> simp
  | cons c cs ih =>
    unfold cutFirst?
    simp only [occursAfter_cons_iff]
    split
    · next hprefix =>
      simp only [reduceCtorEq, false_iff, not_forall, not_not]
      exact ⟨[], .inl ⟨rfl, List.isPrefixOf_iff_prefix.mp hprefix⟩⟩
    · next hprefix =>
      rw [Option.map_eq_none_iff, ih]
      constructor
      · rintro hnone before (⟨rfl, hhere⟩ | ⟨tail, rfl, htail⟩)
        · exact hprefix (List.isPrefixOf_iff_prefix.mpr hhere)
        · exact hnone tail htail
      · exact fun hnone tail htail => hnone (c :: tail) (.inr ⟨tail, rfl, htail⟩)

/-- A text is found exactly if it is a part of the other one. -/
theorem occursIn_iff : occursIn pattern text = true ↔ pattern <:+: text := by
  rw [occursIn, Option.isSome_iff_ne_none, ne_eq, cutFirst?_eq_none_iff, not_forall_not]
  rfl

/-- A search for the first occurrence finds no later one. -/
theorem isFirstOccurrence_of_cutFirst? (h : cutFirst? pattern text = some (before, after)) :
    IsFirstOccurrence pattern text before := by
  refine ⟨⟨after, append_of_cutFirst? h⟩, ?_⟩
  induction text generalizing before with
  | nil =>
    intro other hother
    unfold cutFirst? at h
    split at h
    · obtain ⟨rfl, rfl⟩ := by simpa using h
      exact Nat.zero_le _
    · contradiction
  | cons c cs ih =>
    intro other hother
    unfold cutFirst? at h
    split at h
    · obtain ⟨rfl, rfl⟩ := by simpa using h
      exact Nat.zero_le _
    · next hprefix =>
      obtain ⟨⟨tail, after⟩, hfound, heq⟩ := Option.map_eq_some_iff.mp h
      obtain ⟨rfl, rfl⟩ := by simpa using heq
      rcases occursAfter_cons_iff.mp hother with ⟨_, hhere⟩ | ⟨otherTail, rfl, htail⟩
      · exact absurd (List.isPrefixOf_iff_prefix.mpr hhere) hprefix
      · exact Nat.succ_le_succ (ih hfound otherTail htail)

/-- A search for the first occurrence gives the text before it and the text after it. -/
theorem cutFirst?_eq_some_iff :
    cutFirst? pattern text = some (before, after) ↔
      IsFirstOccurrence pattern text before ∧ before ++ pattern ++ after = text := by
  constructor
  · exact fun h => ⟨isFirstOccurrence_of_cutFirst? h, append_of_cutFirst? h⟩
  · rintro ⟨hfirst, htext⟩
    cases hcut : cutFirst? pattern text with
    | none => exact absurd hfirst.occurs (cutFirst?_eq_none_iff.mp hcut before)
    | some found =>
      obtain ⟨foundBefore, foundAfter⟩ := found
      obtain rfl := hfirst.unique (isFirstOccurrence_of_cutFirst? hcut)
      have hsame := (append_of_cutFirst? hcut).trans htext.symm
      rw [List.append_cancel_left hsame]

/-! ## The last occurrence -/

/-- A search for the last occurrence finds nothing exactly if there is none. -/
theorem cutLast?_eq_none_iff :
    cutLast? pattern text = none ↔ ∀ before, ¬OccursAfter pattern text before := by
  induction text with
  | nil =>
    simp only [cutLast?, occursAfter_nil_iff]
    cases pattern <;> simp
  | cons c cs ih =>
    unfold cutLast?
    simp only [occursAfter_cons_iff]
    split
    · next found hfound =>
      -- There is an occurrence in what follows, for otherwise the search would find none there.
      obtain ⟨tail, htail⟩ : ∃ tail, OccursAfter pattern cs tail := by
        by_contra hnone
        have hnothing := (ih.mpr (not_exists.mp hnone)).symm.trans hfound
        contradiction
      simp only [reduceCtorEq, false_iff, not_forall, not_not]
      exact ⟨c :: tail, .inr ⟨tail, rfl, htail⟩⟩
    · next hnone =>
      have hlater := ih.mp hnone
      split
      · next hprefix =>
        simp only [reduceCtorEq, false_iff, not_forall, not_not]
        exact ⟨[], .inl ⟨rfl, List.isPrefixOf_iff_prefix.mp hprefix⟩⟩
      · next hprefix =>
        refine ⟨?_, fun _ => rfl⟩
        rintro _ before (⟨rfl, hhere⟩ | ⟨tail, rfl, htail⟩)
        · exact hprefix (List.isPrefixOf_iff_prefix.mpr hhere)
        · exact hlater tail htail

/-- A search for the last occurrence finds no earlier one. -/
theorem isLastOccurrence_of_cutLast? (h : cutLast? pattern text = some (before, after)) :
    IsLastOccurrence pattern text before := by
  refine ⟨⟨after, append_of_cutLast? h⟩, ?_⟩
  induction text generalizing before with
  | nil =>
    intro other hother
    obtain ⟨rfl, _⟩ := occursAfter_nil_iff.mp hother
    exact Nat.zero_le _
  | cons c cs ih =>
    intro other hother
    unfold cutLast? at h
    split at h
    · next found hfound =>
      obtain ⟨rfl, rfl⟩ := by simpa using h
      rcases occursAfter_cons_iff.mp hother with ⟨rfl, _⟩ | ⟨tail, rfl, htail⟩
      · exact Nat.zero_le _
      · exact Nat.succ_le_succ (ih hfound tail htail)
    · next hnone =>
      rcases occursAfter_cons_iff.mp hother with ⟨rfl, _⟩ | ⟨tail, rfl, htail⟩
      · exact Nat.zero_le _
      · exact absurd htail (cutLast?_eq_none_iff.mp hnone tail)

/-- A search for the last occurrence gives the text before it and the text after it. -/
theorem cutLast?_eq_some_iff :
    cutLast? pattern text = some (before, after) ↔
      IsLastOccurrence pattern text before ∧ before ++ pattern ++ after = text := by
  constructor
  · exact fun h => ⟨isLastOccurrence_of_cutLast? h, append_of_cutLast? h⟩
  · rintro ⟨hlast, htext⟩
    cases hcut : cutLast? pattern text with
    | none => exact absurd hlast.occurs (cutLast?_eq_none_iff.mp hcut before)
    | some found =>
      obtain ⟨foundBefore, foundAfter⟩ := found
      obtain rfl := hlast.unique (isLastOccurrence_of_cutLast? hcut)
      have hsame := (append_of_cutLast? hcut).trans htext.symm
      rw [List.append_cancel_left hsame]

/-! ## The text before a mark -/

/-- There is no text before a mark exactly if there is no mark. -/
theorem upTo?_eq_none_iff {mark : Char} : upTo? mark text = none ↔ mark ∉ text := by
  induction text with
  | nil => simp [upTo?]
  | cons c cs ih =>
    unfold upTo?
    split
    · next hc => simp [hc]
    · next hc => rw [Option.map_eq_none_iff, ih, List.mem_cons, not_or, and_iff_right (Ne.symm hc)]

/-- Text that is added after a mark does not change the text before the first mark. -/
theorem upTo?_append {mark : Char} (h : mark ∈ text) (extra : List Char) :
    upTo? mark (text ++ extra) = upTo? mark text := by
  induction text with
  | nil => exact absurd h List.not_mem_nil
  | cons c cs ih =>
    rw [List.cons_append, upTo?, upTo?]
    split
    · rfl
    · next hc =>
      rw [ih ((List.mem_cons.mp h).resolve_left (Ne.symm hc))]

/-- The same holds of the text from a position on. -/
theorem upTo?_drop_append {mark : Char} {n : Nat} (h : mark ∈ text.drop n) (extra : List Char) :
    upTo? mark ((text ++ extra).drop n) = upTo? mark (text.drop n) := by
  have hlt : n < text.length := List.length_lt_of_drop_ne_nil (List.ne_nil_of_mem h)
  rw [List.drop_append_of_le_length (Nat.le_of_lt hlt), upTo?_append h]

end Stubgen.Text
