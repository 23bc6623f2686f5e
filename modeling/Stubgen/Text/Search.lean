/-!
# Finding one text in another

A search gives back the text before and the text after the occurrence it finds, so
that no position has to be computed. Joining the three parts restores the text.
-/

namespace Stubgen.Text

/-- Cuts a text at the first occurrence of `pattern`: what stands before it and
what stands after it. -/
def cutFirst? (pattern : List Char) : List Char → Option (List Char × List Char)
  | [] => if pattern.isPrefixOf [] then some ([], []) else none
  | c :: cs =>
    if pattern.isPrefixOf (c :: cs) then some ([], (c :: cs).drop pattern.length)
    else (cutFirst? pattern cs).map fun found => (c :: found.1, found.2)

/-- Cuts a text at the last occurrence of `pattern`. -/
def cutLast? (pattern : List Char) : List Char → Option (List Char × List Char)
  | [] => if pattern.isPrefixOf [] then some ([], []) else none
  | c :: cs =>
    match cutLast? pattern cs with
    | some found => some (c :: found.1, found.2)
    | none =>
      if pattern.isPrefixOf (c :: cs) then some ([], (c :: cs).drop pattern.length) else none

/-- The text before the first `mark`, or `none` if there is no `mark`. -/
def upTo? (mark : Char) : List Char → Option (List Char)
  | [] => none
  | c :: cs => if c = mark then some [] else (upTo? mark cs).map (c :: ·)

/-- The text before the first `mark`, or all of it if there is no `mark`. -/
def upTo (mark : Char) (text : List Char) : List Char :=
  text.takeWhile (· ≠ mark)

/-- The pieces of a text between the characters `mark`; one more than there are marks. -/
def splitAt (mark : Char) : List Char → List (List Char)
  | [] => [[]]
  | c :: cs =>
    if c = mark then [] :: splitAt mark cs
    else
      match splitAt mark cs with
      | [] => [[c]]
      | piece :: pieces => (c :: piece) :: pieces

/-- Whether `pattern` occurs in the text. -/
def occursIn (pattern text : List Char) : Bool :=
  (cutFirst? pattern text).isSome

/-- What follows `start` in a text that begins with it. -/
def dropStart? (start text : List Char) : Option (List Char) :=
  if start.isPrefixOf text then some (text.drop start.length) else none

/-- The text without one leading `start`, if it has one. -/
def dropStart (start text : List Char) : List Char :=
  (dropStart? start text).getD text

private theorem isPrefixOf_append_drop {pattern text : List Char}
    (h : pattern.isPrefixOf text) : pattern ++ text.drop pattern.length = text := by
  obtain ⟨rest, rfl⟩ := List.isPrefixOf_iff_prefix.mp h
  simp

/-- The parts found by a search for the first occurrence make up the text. -/
theorem append_of_cutFirst? {pattern text before after : List Char}
    (h : cutFirst? pattern text = some (before, after)) :
    before ++ pattern ++ after = text := by
  induction text generalizing before with
  | nil =>
    unfold cutFirst? at h
    split at h
    · next hp =>
      obtain ⟨rfl, rfl⟩ := by simpa using h
      simpa using isPrefixOf_append_drop hp
    · simp at h
  | cons c cs ih =>
    unfold cutFirst? at h
    split at h
    · next hp =>
      obtain ⟨rfl, rfl⟩ := by simpa using h
      simpa using isPrefixOf_append_drop hp
    · obtain ⟨⟨b, a⟩, hfound, heq⟩ := Option.map_eq_some_iff.mp h
      obtain ⟨rfl, rfl⟩ := by simpa using heq
      simpa using ih hfound

/-- The parts found by a search for the last occurrence make up the text. -/
theorem append_of_cutLast? {pattern text before after : List Char}
    (h : cutLast? pattern text = some (before, after)) :
    before ++ pattern ++ after = text := by
  induction text generalizing before with
  | nil =>
    unfold cutLast? at h
    split at h
    · next hp =>
      obtain ⟨rfl, rfl⟩ := by simpa using h
      simpa using isPrefixOf_append_drop hp
    · simp at h
  | cons c cs ih =>
    unfold cutLast? at h
    split at h
    · next found hfound =>
      obtain ⟨rfl, rfl⟩ := by simpa using h
      simpa using ih hfound
    · split at h
      · next hp =>
        obtain ⟨rfl, rfl⟩ := by simpa using h
        simpa using isPrefixOf_append_drop hp
      · simp at h

/-- A text before a mark contains no mark, and the mark follows it. -/
theorem upTo?_eq_some_iff {mark : Char} {text piece : List Char} :
    upTo? mark text = some piece ↔ mark ∉ piece ∧ ∃ rest, text = piece ++ mark :: rest := by
  induction text generalizing piece with
  | nil => simp [upTo?]
  | cons c cs ih =>
    unfold upTo?
    split
    · next hc =>
      subst hc
      constructor
      · rintro ⟨⟩
        exact ⟨by simp, cs, rfl⟩
      · rintro ⟨hmem, rest, hrest⟩
        cases piece with
        | nil => rfl
        | cons d piece =>
          simp only [List.cons_append, List.cons.injEq] at hrest
          simp [hrest.1] at hmem
    · next hc =>
      simp only [Option.map_eq_some_iff]
      constructor
      · rintro ⟨a, ha, rfl⟩
        obtain ⟨hmem, rest, rfl⟩ := ih.mp ha
        exact ⟨by simp [hmem, Ne.symm hc], rest, rfl⟩
      · rintro ⟨hmem, rest, hrest⟩
        cases piece with
        | nil => simp [hc] at hrest
        | cons d piece =>
          simp only [List.cons_append, List.cons.injEq] at hrest
          obtain ⟨rfl, rfl⟩ := hrest
          exact ⟨piece, ih.mpr ⟨by simp_all, rest, rfl⟩, rfl⟩

/-- A run of characters is taken whole if the text after it does not go on with the run. -/
theorem takeWhile_append_exact {p : Char → Bool} {run rest : List Char}
    (hrun : ∀ c ∈ run, p c = true) (hrest : ∀ c ∈ rest.head?, p c = false) :
    (run ++ rest).takeWhile p = run := by
  rw [List.takeWhile_append_of_pos hrun]
  cases rest with
  | nil => simp
  | cons c rest => simp [hrest c rfl]

/-- A run of characters is dropped whole if the text after it does not go on with the run. -/
theorem dropWhile_append_exact {p : Char → Bool} {run rest : List Char}
    (hrun : ∀ c ∈ run, p c = true) (hrest : ∀ c ∈ rest.head?, p c = false) :
    (run ++ rest).dropWhile p = rest := by
  rw [List.dropWhile_append_of_pos hrun]
  cases rest with
  | nil => simp
  | cons c rest => simp [hrest c rfl]

/-- There is at least one piece between marks. -/
theorem splitAt_ne_nil (mark : Char) (text : List Char) : splitAt mark text ≠ [] := by
  cases text with
  | nil => simp [splitAt]
  | cons c cs =>
    rw [splitAt]
    split
    · exact List.cons_ne_nil _ _
    · split <;> exact List.cons_ne_nil _ _

/-- A text is cut at a mark and on either side of it. -/
theorem splitAt_append (mark : Char) (front rest : List Char) :
    splitAt mark (front ++ mark :: rest) = splitAt mark front ++ splitAt mark rest := by
  induction front with
  | nil => simp [splitAt]
  | cons c cs ih =>
    rw [List.cons_append, splitAt, splitAt, ih]
    split
    · rfl
    · obtain ⟨piece, pieces, hpieces⟩ := List.exists_cons_of_ne_nil (splitAt_ne_nil mark cs)
      rw [hpieces]
      rfl

/-- A text without the mark is one piece. -/
theorem splitAt_of_notMem {mark : Char} {text : List Char} (h : mark ∉ text) :
    splitAt mark text = [text] := by
  induction text with
  | nil => rfl
  | cons c cs ih =>
    rw [List.mem_cons, not_or] at h
    obtain ⟨hc, hcs⟩ := h
    rw [splitAt, if_neg (Ne.symm hc), ih hcs]

end Stubgen.Text
