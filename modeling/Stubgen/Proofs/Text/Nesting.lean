import Mathlib.Data.List.Infix

/-!
# Brackets that nest

A text with brackets is read from the left, and a counter tells how many of them are open. A text
nests if it closes none that was not opened, and it settles if the counter ends at zero. The first
bracket that closes more than were opened cuts a text in two: what stands before it settles.
-/

namespace Stubgen.Text

/-- The characters that count as brackets. -/
structure Brackets where
  opens : Char → Bool
  closes : Char → Bool
  disjoint : ∀ c, opens c = true → closes c = false

namespace Brackets

/-- Parentheses as the only brackets. -/
def round : Brackets where
  opens c := c = '('
  closes c := c = ')'
  disjoint c hopens := by
    obtain rfl := decide_eq_true_iff.mp hopens
    rfl

/-- How many brackets are open after a character. A bracket that closes none does not count. -/
def move (b : Brackets) (depth : Nat) (c : Char) : Nat :=
  if b.opens c then depth + 1 else if b.closes c then depth - 1 else depth

/-- How many brackets are open after a text, when `depth` are open before it. -/
def depthAfter (b : Brackets) (depth : Nat) (text : List Char) : Nat :=
  text.foldl b.move depth

/-- No beginning of the text closes more than `depth` brackets besides those that it opens. -/
def Nests (b : Brackets) (depth : Nat) (text : List Char) : Prop :=
  ∀ front, front <+: text → front.countP b.closes ≤ depth + front.countP b.opens

/-- The text closes the brackets that it opens and `depth` others, and no more at any time. -/
structure Settles (b : Brackets) (depth : Nat) (text : List Char) : Prop where
  nests : b.Nests depth text
  settled : text.countP b.closes = depth + text.countP b.opens

/-- The character stands in the text at a place where no bracket is open, when `depth` are open
before it. -/
def HoldsOutside (b : Brackets) (depth : Nat) (text : List Char) (c : Char) : Prop :=
  ∃ front rest, text = front ++ c :: rest ∧ b.depthAfter depth front = 0

/-- What stands before the first bracket that closes more than were opened, this bracket, and what
stands after it. -/
def cut? (b : Brackets) (depth : Nat) : List Char → Option (List Char × Char × List Char)
  | [] => none
  | c :: cs =>
    if b.closes c ∧ depth = 0 then some ([], c, cs)
    else (b.cut? (b.move depth c) cs).map fun cut => (c :: cut.1, cut.2)

variable {b : Brackets} {depth : Nat} {c : Char} {cs text front rest inside : List Char}

/-! ## Counting -/

/-- An opening bracket is counted. -/
theorem move_of_opens (hopens : b.opens c = true) : b.move depth c = depth + 1 :=
  if_pos hopens

/-- A closing bracket takes one away, if there is one. -/
theorem move_of_closes (hcloses : b.closes c = true) : b.move depth c = depth - 1 := by
  have hopens : ¬b.opens c = true := fun hopens =>
    nomatch (b.disjoint c hopens).symm.trans hcloses
  exact (if_neg hopens).trans (if_pos hcloses)

/-- Where no bracket is open, only an opening one counts. -/
theorem move_zero_of_not_opens (hopens : ¬b.opens c = true) : b.move 0 c = 0 :=
  (if_neg hopens).trans (ite_self 0)

/-- Other characters do not count. -/
theorem move_of_plain (hopens : ¬b.opens c = true) (hcloses : ¬b.closes c = true) :
    b.move depth c = depth :=
  (if_neg hopens).trans (if_neg hcloses)

/-- The counter after a character, and after the text behind it. -/
theorem depthAfter_cons : b.depthAfter depth (c :: cs) = b.depthAfter (b.move depth c) cs :=
  List.foldl_cons

/-- The counter after a text, and after the text behind it. -/
theorem depthAfter_append :
    b.depthAfter depth (front ++ rest) = b.depthAfter (b.depthAfter depth front) rest :=
  List.foldl_append

/-- A character stands outside of all brackets at the beginning or behind the first character. -/
theorem holdsOutside_cons_iff {d : Char} :
    b.HoldsOutside depth (d :: cs) c ↔
      d = c ∧ depth = 0 ∨ b.HoldsOutside (b.move depth d) cs c := by
  constructor
  · rintro ⟨front, rest, htext, hends⟩
    cases front with
    | nil => exact .inl ⟨(List.cons.inj htext).1, hends⟩
    | cons e front =>
      obtain ⟨rfl, hcs⟩ := List.cons.inj htext
      exact .inr ⟨front, rest, hcs, hends⟩
  · rintro (⟨rfl, hzero⟩ | ⟨front, rest, rfl, hends⟩)
    · exact ⟨[], cs, rfl, hzero⟩
    · exact ⟨d :: front, rest, rfl, hends⟩

/-- One more character is counted on one of the two sides, or not at all. -/
theorem countP_cons_eq (cs : List Char) (hcloses : b.closes c = true → 0 < depth) :
    depth + (c :: cs).countP b.opens + cs.countP b.closes =
      b.move depth c + cs.countP b.opens + (c :: cs).countP b.closes := by
  unfold move
  rw [List.countP_cons, List.countP_cons]
  split
  · next hopens =>
    rw [b.disjoint c hopens, if_neg Bool.false_ne_true]
    omega
  · split
    · next hclosed =>
      have hpos := hcloses hclosed
      omega
    · omega

/-- No text nests. -/
theorem nests_nil : b.Nests depth [] := by
  intro front hfront
  obtain rfl := List.prefix_nil.mp hfront
  exact Nat.zero_le _

/-- A text nests if its first character closes nothing, or an open bracket, and the others nest
when it has been counted. -/
theorem nests_cons_iff :
    b.Nests depth (c :: cs) ↔ (b.closes c = true → 0 < depth) ∧ b.Nests (b.move depth c) cs := by
  constructor
  · intro h
    have hcloses : b.closes c = true → 0 < depth := by
      intro hclosed
      have hopens : b.opens c = false := by
        by_contra hopened
        exact nomatch (b.disjoint c (by simpa using hopened)).symm.trans hclosed
      simpa [Nat.succ_le_iff, hclosed, hopens] using h [c] (by simp)
    refine ⟨hcloses, fun front hfront => ?_⟩
    have hle := h (c :: front) (List.cons_prefix_cons.mpr ⟨rfl, hfront⟩)
    have heq := countP_cons_eq front hcloses
    omega
  · rintro ⟨hcloses, hrest⟩ front hfront
    rcases List.prefix_cons_iff.mp hfront with rfl | ⟨tail, rfl, htail⟩
    · exact Nat.zero_le _
    · have hle := hrest tail htail
      have heq := countP_cons_eq tail hcloses
      omega

/-- While brackets nest, the counter is the difference of what was opened and what was closed. -/
theorem Nests.depthAfter_add (h : b.Nests depth text) :
    b.depthAfter depth text + text.countP b.closes = depth + text.countP b.opens := by
  induction text generalizing depth with
  | nil => rfl
  | cons c cs ih =>
    obtain ⟨hcloses, hrest⟩ := nests_cons_iff.mp h
    have hcs := ih hrest
    have heq := countP_cons_eq cs hcloses
    rw [depthAfter_cons]
    omega

/-- A text settles if its brackets nest and none is open in the end. -/
theorem settles_iff : b.Settles depth text ↔ b.Nests depth text ∧ b.depthAfter depth text = 0 := by
  constructor
  · rintro ⟨hnests, hsettled⟩
    have heq := hnests.depthAfter_add
    exact ⟨hnests, by omega⟩
  · rintro ⟨hnests, hzero⟩
    have heq := hnests.depthAfter_add
    exact ⟨hnests, by omega⟩

/-- No text settles. -/
theorem settles_nil : b.Settles 0 [] :=
  settles_iff.mpr ⟨nests_nil, rfl⟩

/-- A text settles if its first character closes nothing, or an open bracket, and the others settle
when it has been counted. -/
theorem settles_cons_iff :
    b.Settles depth (c :: cs) ↔
      (b.closes c = true → 0 < depth) ∧ b.Settles (b.move depth c) cs := by
  rw [settles_iff, settles_iff, nests_cons_iff, depthAfter_cons, and_assoc]

/-- A text nests if a beginning of it does and the rest does behind it. -/
theorem nests_append_iff :
    b.Nests depth (front ++ rest) ↔
      b.Nests depth front ∧ b.Nests (b.depthAfter depth front) rest := by
  induction front generalizing depth with
  | nil => exact ⟨fun h => ⟨nests_nil, h⟩, And.right⟩
  | cons c cs ih =>
    rw [List.cons_append, nests_cons_iff, nests_cons_iff, depthAfter_cons, ih, and_assoc]

/-- A text settles if a beginning of it nests and the rest settles behind it. -/
theorem settles_append_iff :
    b.Settles depth (front ++ rest) ↔
      b.Nests depth front ∧ b.Settles (b.depthAfter depth front) rest := by
  rw [settles_iff, settles_iff, nests_append_iff, depthAfter_append, and_assoc]

/-- A text that closes no more brackets in all than are open nests. -/
theorem nests_of_countP_le (h : text.countP b.closes ≤ depth) : b.Nests depth text :=
  fun _ hfront => (hfront.sublist.countP_le.trans h).trans (Nat.le_add_right _ _)

/-- A text that settles closes all the brackets that are open, so it does not nest in fewer. -/
theorem Settles.not_nests {fewer : Nat} (h : b.Settles depth text) (hlt : fewer < depth) :
    ¬b.Nests fewer text := by
  intro hnests
  have hle := hnests text (List.prefix_refl text)
  have hsettled := h.settled
  omega

/-- Texts that settle may follow each other. -/
theorem Settles.append (hfront : b.Settles depth front) (hrest : b.Settles 0 rest) :
    b.Settles depth (front ++ rest) := by
  obtain ⟨hnests, hzero⟩ := settles_iff.mp hfront
  exact settles_append_iff.mpr ⟨hnests, hzero ▸ hrest⟩

/-- A text that settles may be put between brackets. -/
theorem Settles.enclosed {opener closer : Char} (h : b.Settles 0 inside)
    (hopens : b.opens opener = true) (hcloses : b.closes closer = true) :
    b.Settles 0 (opener :: inside ++ [closer]) := by
  have hnests : b.Nests 1 inside := fun front hfront =>
    (h.nests front hfront).trans (Nat.add_le_add_right (Nat.zero_le 1) _)
  have hdepth : b.depthAfter 1 inside = 1 := by
    have hadd := hnests.depthAfter_add
    have hsettled := h.settled
    omega
  rw [List.cons_append, settles_cons_iff, move_of_opens hopens, settles_append_iff, hdepth,
    settles_cons_iff, move_of_closes hcloses]
  have hopener : b.closes opener = true → 0 < 0 := fun hclosed =>
    nomatch (b.disjoint opener hopens).symm.trans hclosed
  exact ⟨hopener, hnests, fun _ => Nat.one_pos, settles_nil⟩

/-- Texts that settle may be joined by one that settles. -/
theorem settles_intercalate {separator : List Char} {texts : List (List Char)}
    (hseparator : b.Settles 0 separator) (htexts : ∀ text ∈ texts, b.Settles 0 text) :
    b.Settles 0 (separator.intercalate texts) := by
  induction texts with
  | nil => exact settles_nil
  | cons text texts ih =>
    have htext := htexts text List.mem_cons_self
    have hmore := ih fun other hother => htexts other (List.mem_cons_of_mem text hother)
    cases texts with
    | nil => rwa [List.intercalate_singleton]
    | cons other texts =>
      rw [List.intercalate_cons_cons]
      exact (htext.append hseparator).append hmore

/-- A text without brackets settles. -/
theorem settles_of_plain (hopens : ∀ c ∈ text, b.opens c = false)
    (hcloses : ∀ c ∈ text, b.closes c = false) : b.Settles 0 text := by
  have hnone {front : List Char} (hfront : front <+: text) :
      front.countP b.closes = 0 ∧ front.countP b.opens = 0 := by
    rw [List.countP_eq_zero, List.countP_eq_zero]
    constructor
    · exact fun c hc => by simp [hcloses c (hfront.subset hc)]
    · exact fun c hc => by simp [hopens c (hfront.subset hc)]
  constructor
  · intro front hfront
    rw [(hnone hfront).1]
    exact Nat.zero_le _
  · rw [(hnone (List.prefix_refl text)).1, (hnone (List.prefix_refl text)).2]

/-! ## Cutting at the bracket that closes too much -/

/-- Every text without a bracket that closes too much nests, and the others do not. -/
theorem cut?_eq_none_iff : b.cut? depth text = none ↔ b.Nests depth text := by
  induction text generalizing depth with
  | nil => exact ⟨fun _ => nests_nil, fun _ => rfl⟩
  | cons c cs ih =>
    rw [cut?, nests_cons_iff]
    split
    · next hcut => simp [hcut.1, hcut.2]
    · next hcut =>
      rw [Option.map_eq_none_iff, ih, and_iff_right]
      exact fun hclosed => Nat.pos_of_ne_zero fun hzero => hcut ⟨hclosed, hzero⟩

instance (b : Brackets) (depth : Nat) (text : List Char) : Decidable (b.Nests depth text) :=
  decidable_of_iff (b.cut? depth text = none) cut?_eq_none_iff

instance (b : Brackets) (depth : Nat) (text : List Char) : Decidable (b.Settles depth text) :=
  decidable_of_iff _ settles_iff.symm

/-- The text is cut at the bracket behind a beginning that settles. -/
theorem cut?_eq_some_iff :
    b.cut? depth text = some (inside, c, rest) ↔
      text = inside ++ c :: rest ∧ b.closes c = true ∧ b.Settles depth inside := by
  induction text generalizing depth inside with
  | nil => simp [cut?]
  | cons d cs ih =>
    unfold cut?
    split
    · next hcut =>
      obtain ⟨hclosed, rfl⟩ := hcut
      constructor
      · intro h
        obtain ⟨rfl, rfl, rfl⟩ : [] = inside ∧ d = c ∧ cs = rest := by simpa using h
        exact ⟨rfl, hclosed, settles_nil⟩
      · rintro ⟨htext, hcloses, hinside⟩
        cases inside with
        | nil =>
          obtain ⟨rfl, rfl⟩ := List.cons.inj htext
          rfl
        | cons e inside =>
          obtain ⟨rfl, -⟩ := List.cons.inj htext
          exact absurd ((settles_cons_iff.mp hinside).1 hclosed) (Nat.lt_irrefl 0)
    · next hcut =>
      rw [Option.map_eq_some_iff]
      constructor
      · rintro ⟨⟨tail, c, rest⟩, hfound, heq⟩
        obtain ⟨rfl, rfl, rfl⟩ := by simpa using heq
        obtain ⟨rfl, hcloses, htail⟩ := ih.mp hfound
        refine ⟨rfl, hcloses, settles_cons_iff.mpr ⟨fun hclosed => ?_, htail⟩⟩
        exact Nat.pos_of_ne_zero fun hzero => hcut ⟨hclosed, hzero⟩
      · rintro ⟨htext, hcloses, hinside⟩
        cases inside with
        | nil =>
          obtain ⟨rfl, rfl⟩ := List.cons.inj htext
          exact absurd ⟨hcloses, (settles_iff.mp hinside).2⟩ hcut
        | cons e inside =>
          obtain ⟨rfl, rfl⟩ := List.cons.inj htext
          obtain ⟨-, htail⟩ := settles_cons_iff.mp hinside
          exact ⟨(inside, c, rest), ih.mpr ⟨rfl, hcloses, htail⟩, rfl⟩

/-- A text that does not nest settles up to a bracket that closes too much. -/
theorem exists_settles_of_not_nests (h : ¬b.Nests depth text) :
    ∃ inside c rest, text = inside ++ c :: rest ∧ b.closes c = true ∧ b.Settles depth inside := by
  cases hcut : b.cut? depth text with
  | none => exact absurd (cut?_eq_none_iff.mp hcut) h
  | some cut =>
    obtain ⟨inside, c, rest⟩ := cut
    exact ⟨inside, c, rest, cut?_eq_some_iff.mp hcut⟩

end Brackets

end Stubgen.Text
