import Stubgen.Proofs.Text.Occurrence
import Stubgen.Text.Measure

/-!
# Byte positions

A byte position of a text is a boundary if it lies between two characters or at an end. A position
that is none is rounded down to the next boundary before it, and a text may be cut at boundaries
only. Cutting out of bounds or inside a character gives nothing, so that a scan by positions shows
whether it ever does so.
-/

namespace Stubgen.Text

variable {text front piece rest pattern before other : List Char} {offset start stop : Nat}

/-- Whether a byte position lies between two characters of a text or at one of its ends. -/
def isBoundary (text : List Char) (offset : Nat) : Bool :=
  byteLength (takeBytes offset text) = offset

/-- The last boundary at or before a position: one byte after the other is taken away. -/
def roundDown (text : List Char) : Nat → Nat
  | 0 => 0
  | offset + 1 => if isBoundary text (offset + 1) then offset + 1 else roundDown text offset

/-- The part of a text between two byte positions. It is there only if both are boundaries and in
order. -/
def slice? (text : List Char) (start stop : Nat) : Option (List Char) :=
  if start ≤ stop ∧ isBoundary text start ∧ isBoundary text stop then
    some ((takeBytes stop text).drop (takeBytes start text).length)
  else none

/-! ## Lengths of beginnings -/

/-- Of two beginnings of a text the longer one takes more bytes. -/
theorem byteLength_le_iff_of_beginnings (hfront : front <+: text) (hother : other <+: text) :
    byteLength front ≤ byteLength other ↔ front.length ≤ other.length := by
  have hlonger {short long : List Char} (hbegins : short <+: long) :
      byteLength short ≤ byteLength long := by
    obtain ⟨more, rfl⟩ := hbegins
    rw [byteLength_append]
    exact Nat.le_add_right _ _
  constructor
  · intro hle
    by_contra hlt
    obtain ⟨more, rfl⟩ := List.prefix_of_prefix_length_le hother hfront (by omega)
    cases more with
    | nil => simp at hlt
    | cons c more =>
      have hpos := c.utf8Size_pos
      simp only [byteLength_append, byteLength_cons] at hle
      omega
  · exact fun hle => hlonger (List.prefix_of_prefix_length_le hfront hother hle)

/-- Beginnings of one length are the same. -/
theorem eq_of_byteLength_eq (hfront : front <+: text) (hother : other <+: text)
    (heq : byteLength front = byteLength other) : front = other := by
  have hle := (byteLength_le_iff_of_beginnings hfront hother).mp (Nat.le_of_eq heq)
  have hge := (byteLength_le_iff_of_beginnings hother hfront).mp (Nat.le_of_eq heq.symm)
  exact (List.prefix_of_prefix_length_le hfront hother hle).eq_of_length (by omega)

/-- A beginning of a text lies within a cut exactly if it does not take more bytes. -/
theorem prefix_takeBytes_iff :
    front <+: takeBytes offset text ↔ front <+: text ∧ byteLength front ≤ offset := by
  induction text generalizing front offset with
  | nil =>
    simp only [takeBytes, List.prefix_nil]
    refine ⟨fun h => ⟨h, by simp [h]⟩, And.left⟩
  | cons c cs ih =>
    unfold takeBytes
    cases front with
    | nil => simp
    | cons d front =>
      split
      · next hfits =>
        simp only [List.cons_prefix_cons, ih, byteLength_cons]
        constructor
        · rintro ⟨rfl, hfront, hle⟩
          exact ⟨⟨rfl, hfront⟩, by omega⟩
        · rintro ⟨⟨rfl, hfront⟩, hle⟩
          exact ⟨rfl, hfront, by omega⟩
      · next hfits =>
        simp only [List.prefix_nil, reduceCtorEq, List.cons_prefix_cons, byteLength_cons, false_iff,
          not_and]
        rintro ⟨rfl, _⟩
        omega

/-- What occurs in a cut of a text occurs in the text. -/
theorem OccursAfter.of_takeBytes (h : OccursAfter pattern (takeBytes offset text) before) :
    OccursAfter pattern text before :=
  List.IsPrefix.trans h <| takeBytes_prefix offset text

/-- A cut at a beginning of the text gives the beginning. -/
theorem takeBytes_of_beginning (hfront : front <+: text) :
    takeBytes (byteLength front) text = front := by
  obtain ⟨rest, rfl⟩ := hfront
  exact takeBytes_byteLength front rest

/-- Cuts at positions that the same beginnings of the text reach are the same. -/
theorem takeBytes_congr (h : ∀ front, front <+: text →
    (byteLength front ≤ start ↔ byteLength front ≤ stop)) :
    takeBytes start text = takeBytes stop text := by
  have hstart : takeBytes start text <+: takeBytes stop text := by
    have hcut := takeBytes_prefix start text
    exact prefix_takeBytes_iff.mpr ⟨hcut, (h _ hcut).mp (byteLength_takeBytes_le start text)⟩
  have hstop : takeBytes stop text <+: takeBytes start text := by
    have hcut := takeBytes_prefix stop text
    exact prefix_takeBytes_iff.mpr ⟨hcut, (h _ hcut).mpr (byteLength_takeBytes_le stop text)⟩
  exact hstart.eq_of_length_le hstop.length_le

/-- A position beyond the end of a text cuts as the end does. -/
theorem takeBytes_min (offset : Nat) (text : List Char) :
    takeBytes (min offset (byteLength text)) text = takeBytes offset text := by
  refine takeBytes_congr fun front hfront => ?_
  have hle := (byteLength_le_iff_of_beginnings hfront (List.prefix_refl text)).mpr hfront.length_le
  omega

/-- A cut one byte before the end of a beginning loses the last character of the beginning. -/
theorem takeBytes_pred (hbefore : before <+: text) :
    takeBytes (byteLength before - 1) text = before.dropLast := by
  rcases before.eq_nil_or_concat with rfl | ⟨shorter, c, rfl⟩
  · exact takeBytes_of_beginning List.nil_prefix
  · rw [List.concat_eq_append] at hbefore ⊢
    have hshorter : shorter <+: text := (List.prefix_append shorter [c]).trans hbefore
    have hcut : takeBytes (byteLength (shorter ++ [c]) - 1) text =
        takeBytes (byteLength shorter) text := by
      refine takeBytes_congr fun front hfront => ?_
      have hpos := c.utf8Size_pos
      have hle := byteLength_le_iff_of_beginnings hfront hshorter
      have hge := byteLength_le_iff_of_beginnings hbefore hfront
      simp only [byteLength_append, byteLength_cons, byteLength_nil, List.length_append,
        List.length_cons, List.length_nil] at hge ⊢
      omega
    rw [hcut, takeBytes_of_beginning hshorter, List.dropLast_concat]

/-! ## Boundaries -/

/-- The boundaries of a text are the lengths of its beginnings. -/
theorem isBoundary_iff :
    isBoundary text offset = true ↔ ∃ front, front <+: text ∧ byteLength front = offset := by
  unfold isBoundary
  rw [decide_eq_true_iff]
  constructor
  · exact fun h => ⟨takeBytes offset text, takeBytes_prefix offset text, h⟩
  · rintro ⟨front, hfront, rfl⟩
    rw [takeBytes_of_beginning hfront]

/-- Rounding down a position gives the end of the cut there. -/
theorem roundDown_eq (text : List Char) (offset : Nat) :
    roundDown text offset = byteLength (takeBytes offset text) := by
  induction offset with
  | zero => exact (Nat.le_zero.mp (byteLength_takeBytes_le 0 text)).symm
  | succ offset ih =>
    unfold roundDown
    split
    · next hboundary => exact (decide_eq_true_iff.mp hboundary).symm
    · next hinside =>
      rw [ih]
      refine congrArg byteLength (takeBytes_congr fun front hfront => ?_)
      have hne : byteLength front ≠ offset + 1 :=
        fun heq => hinside (isBoundary_iff.mpr ⟨front, hfront, heq⟩)
      omega

/-- A cut at a position that is rounded down is the cut at the position. -/
theorem takeBytes_roundDown (text : List Char) (offset : Nat) :
    takeBytes (roundDown text offset) text = takeBytes offset text := by
  have hcut := takeBytes_prefix offset text
  rw [roundDown_eq, takeBytes_of_beginning hcut]

/-- Between the ends of two beginnings is what the longer one has more. -/
theorem slice?_append (front piece rest : List Char) :
    slice? (front ++ piece ++ rest) (byteLength front) (byteLength front + byteLength piece) =
      some piece := by
  have hfront : front <+: front ++ piece ++ rest := by
    rw [List.append_assoc]
    exact List.prefix_append _ _
  have hlonger : front ++ piece <+: front ++ piece ++ rest := List.prefix_append _ _
  unfold slice?
  rw [← byteLength_append, takeBytes_of_beginning hfront, takeBytes_of_beginning hlonger,
    List.drop_left, if_pos]
  refine ⟨by simp, isBoundary_iff.mpr ⟨front, hfront, rfl⟩, isBoundary_iff.mpr ⟨_, hlonger, rfl⟩⟩

/-- A text may be cut at a position that is rounded down. -/
theorem slice?_roundDown (text : List Char) (offset : Nat) :
    slice? text 0 (roundDown text offset) = some (takeBytes offset text) := by
  obtain ⟨rest, hrest⟩ := takeBytes_prefix offset text
  have hslice := slice?_append [] (takeBytes offset text) rest
  rwa [List.nil_append, hrest, byteLength_nil, Nat.zero_add, ← roundDown_eq] at hslice

end Stubgen.Text
