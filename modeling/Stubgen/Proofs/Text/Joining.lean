import Stubgen.Proofs.Text.Occurrence
import Stubgen.Proofs.Text.Trimming

/-!
# Texts that are put together

A text is put together from parts, and then a pattern is looked for in it, or it is split at commas
again. What is found stands in one of the parts, as long as the pattern does not hold what separates
them, and a list of parts without commas is split into the same parts.
-/

namespace Stubgen.Text

variable {pattern text front rest before after part : List Char} {mark c : Char}

/-! ## Searching -/

/-- A pattern at the beginning is found there. -/
theorem cutFirst?_self_append (pattern rest : List Char) :
    cutFirst? pattern (pattern ++ rest) = some ([], rest) := by
  have hprefix : pattern.isPrefixOf (pattern ++ rest) = true :=
    List.isPrefixOf_iff_prefix.mpr (List.prefix_append pattern rest)
  cases htext : pattern ++ rest with
  | nil =>
    obtain ⟨rfl, rfl⟩ := List.append_eq_nil_iff.mp htext
    rfl
  | cons c cs =>
    rw [htext] at hprefix
    rw [cutFirst?, if_pos hprefix, ← htext, List.drop_left]

/-- A pattern that does not begin with the text is looked for behind the first character. -/
theorem cutFirst?_cons_of_not_prefix (h : ¬pattern <+: c :: text) :
    cutFirst? pattern (c :: text) =
      (cutFirst? pattern text).map fun found => (c :: found.1, found.2) := by
  rw [cutFirst?, if_neg fun hprefix => h (List.isPrefixOf_iff_prefix.mp hprefix)]

/-- A pattern is not found in a text that lacks one of its characters. -/
theorem cutFirst?_eq_none_of_notMem (hc : c ∈ pattern) (htext : c ∉ text) :
    cutFirst? pattern text = none := by
  refine cutFirst?_eq_none_iff.mpr fun before hbefore => htext ?_
  exact hbefore.subset (List.mem_append_right before hc)

/-- What is found in a text is found in every longer one. -/
theorem cutFirst?_append_of_some (h : cutFirst? pattern text = some (before, after))
    (rest : List Char) : cutFirst? pattern (text ++ rest) = some (before, after ++ rest) := by
  induction text generalizing before with
  | nil =>
    unfold cutFirst? at h
    split at h
    · next hprefix =>
      obtain ⟨rfl, rfl⟩ : [] = before ∧ [] = after := by simpa using h
      obtain rfl : pattern = [] := List.prefix_nil.mp (List.isPrefixOf_iff_prefix.mp hprefix)
      exact cutFirst?_self_append [] rest
    · contradiction
  | cons c cs ih =>
    unfold cutFirst? at h
    split at h
    · next hprefix =>
      obtain ⟨more, hmore⟩ := List.isPrefixOf_iff_prefix.mp hprefix
      rw [← hmore, List.drop_left] at h
      obtain ⟨rfl, rfl⟩ : [] = before ∧ more = after := by simpa using h
      rw [← hmore, List.append_assoc, cutFirst?_self_append]
    · next hprefix =>
      obtain ⟨⟨tail, after⟩, hfound, heq⟩ := Option.map_eq_some_iff.mp h
      obtain ⟨rfl, rfl⟩ := by simpa using heq
      -- The pattern stands behind `c`, so it is not longer than what it would have to begin.
      have hle : pattern.length ≤ (c :: cs).length := by
        rw [← append_of_cutFirst? hfound]
        simp only [List.length_cons, List.length_append]
        omega
      have hlonger : ¬pattern <+: c :: (cs ++ rest) := fun hlong =>
        hprefix (List.isPrefixOf_iff_prefix.mpr
          (List.prefix_of_prefix_length_le hlong (List.prefix_append (c :: cs) rest) hle))
      rw [List.cons_append, cutFirst?_cons_of_not_prefix hlonger, ih hfound]
      rfl

/-- A pattern is looked for behind a text that lacks its first character. -/
theorem cutFirst?_append_of_notMem (hfirst : c ∉ front) (rest : List Char) :
    cutFirst? (c :: pattern) (front ++ rest) =
      (cutFirst? (c :: pattern) rest).map fun found => (front ++ found.1, found.2) := by
  induction front with
  | nil => exact Option.map_id'.symm
  | cons d front ih =>
    rw [List.mem_cons, not_or] at hfirst
    obtain ⟨hd, hfront⟩ := hfirst
    have hprefix : ¬c :: pattern <+: d :: (front ++ rest) := fun hprefix =>
      hd (List.cons_prefix_cons.mp hprefix).1
    rw [List.cons_append, cutFirst?_cons_of_not_prefix hprefix, ih hfront, Option.map_map]
    rfl

/-- A pattern is looked for behind a text in which it is not found, if a mark that it does not hold
follows. -/
theorem cutFirst?_append_mark (hsome : pattern ≠ []) (hmark : mark ∉ pattern)
    (hnone : cutFirst? pattern front = none) (rest : List Char) :
    cutFirst? pattern (front ++ mark :: rest) =
      (cutFirst? pattern rest).map fun found => (front ++ mark :: found.1, found.2) := by
  have hbegins {text : List Char} (hlong : pattern <+: text ++ mark :: rest) :
      pattern <+: text := by
    have hmarked : text ++ [mark] <+: text ++ mark :: rest :=
      (List.prefix_append_right_inj text).mpr (List.prefix_append [mark] rest)
    rcases List.prefix_or_prefix_of_prefix hlong hmarked with hin | hin
    · exact (List.prefix_concat_iff.mp hin).resolve_left fun heq => hmark (by simp [heq])
    · exact absurd (hin.subset (by simp)) hmark
  induction front with
  | nil =>
    rw [List.nil_append, cutFirst?_cons_of_not_prefix fun hprefix =>
      hsome (List.prefix_nil.mp (hbegins hprefix))]
    rfl
  | cons d front ih =>
    unfold cutFirst? at hnone
    split at hnone
    · contradiction
    · next hprefix =>
      have hlonger : ¬pattern <+: d :: (front ++ mark :: rest) := fun hlong =>
        hprefix (List.isPrefixOf_iff_prefix.mpr (hbegins hlong))
      rw [List.cons_append, cutFirst?_cons_of_not_prefix hlonger,
        ih (Option.map_eq_none_iff.mp hnone), Option.map_map]
      rfl

/-- A single character is found behind a text that lacks it. -/
theorem cutFirst?_singleton (h : c ∉ before) (after : List Char) :
    cutFirst? [c] (before ++ c :: after) = some (before, after) := by
  have hthere : cutFirst? [c] (c :: after) = some ([], after) := cutFirst?_self_append [c] after
  rw [cutFirst?_append_of_notMem h, hthere, Option.map_some, List.append_nil]

/-! ## Splitting -/

/-- There is one piece more than there are marks. -/
theorem length_splitAt (mark : Char) (text : List Char) :
    (splitAt mark text).length = text.count mark + 1 := by
  induction text with
  | nil => rfl
  | cons c cs ih =>
    rw [splitAt]
    split
    · next hc => rw [hc, List.length_cons, ih, List.count_cons_self]
    · next hc =>
      obtain ⟨piece, pieces, hpieces⟩ := List.exists_cons_of_ne_nil (splitAt_ne_nil mark cs)
      rw [hpieces] at ih ⊢
      rw [List.count_cons_of_ne hc]
      exact ih

/-- A piece does not hold the mark. -/
theorem notMem_of_mem_splitAt {piece : List Char} (h : piece ∈ splitAt mark text) :
    mark ∉ piece := by
  induction text generalizing piece with
  | nil =>
    obtain rfl := List.mem_singleton.mp h
    exact List.not_mem_nil
  | cons c cs ih =>
    rw [splitAt] at h
    split at h
    · rcases List.mem_cons.mp h with rfl | hrest
      · exact List.not_mem_nil
      · exact ih hrest
    · next hc =>
      obtain ⟨first, pieces, hpieces⟩ := List.exists_cons_of_ne_nil (splitAt_ne_nil mark cs)
      rw [hpieces] at h ih
      rcases List.mem_cons.mp h with rfl | hrest
      · exact List.not_mem_cons_of_ne_of_not_mem (Ne.symm hc) (ih List.mem_cons_self)
      · exact ih (List.mem_cons_of_mem first hrest)

/-- The pieces with marks between them are the text. -/
theorem intercalate_splitAt (mark : Char) (text : List Char) :
    [mark].intercalate (splitAt mark text) = text := by
  induction text with
  | nil => rfl
  | cons c cs ih =>
    rw [splitAt]
    obtain ⟨piece, pieces, hpieces⟩ := List.exists_cons_of_ne_nil (splitAt_ne_nil mark cs)
    rw [hpieces] at ih ⊢
    split
    · next hc =>
      rw [List.intercalate_cons_cons, ih, hc]
      rfl
    · rw [← ih]
      cases pieces with
      | nil => rfl
      | cons next pieces => rw [List.intercalate_cons_cons, List.intercalate_cons_cons]; rfl

/-- A text is known by its pieces. -/
theorem splitAt_injective (mark : Char) : Function.Injective (splitAt mark) := by
  intro text other h
  rw [← intercalate_splitAt mark text, h, intercalate_splitAt]

/-- A blank at the beginning makes no difference to the trimmed pieces. -/
theorem map_trim_splitAt_blank (hmark : c ≠ mark) (hblank : isBlank c = true) :
    (splitAt mark (c :: text)).map trim = (splitAt mark text).map trim := by
  obtain ⟨piece, pieces, hpieces⟩ := List.exists_cons_of_ne_nil (splitAt_ne_nil mark text)
  rw [splitAt, if_neg hmark, hpieces]
  exact congrArg (· :: pieces.map trim) (trim_cons_of_blank hblank)

/-- The pieces of two texts with a comma and a blank between them. -/
theorem map_trim_splitAt_comma (front rest : List Char) :
    (splitAt ',' (front ++ (", ".toList ++ rest))).map trim =
      (splitAt ',' front).map trim ++ (splitAt ',' rest).map trim := by
  have hblank : (splitAt ',' (' ' :: rest)).map trim = (splitAt ',' rest).map trim :=
    map_trim_splitAt_blank (by decide) (by decide)
  rw [← hblank, ← List.map_append, ← splitAt_append]
  rfl

/-- The pieces of a text behind other ones, each with a comma and a blank behind it. -/
theorem map_trim_splitAt_behind (parts : List (List Char)) (text : List Char) :
    (splitAt ',' (parts.flatMap (· ++ ", ".toList) ++ text)).map trim =
      parts.flatMap (fun part => (splitAt ',' part).map trim) ++ (splitAt ',' text).map trim := by
  induction parts with
  | nil => rfl
  | cons part parts ih =>
    rw [List.flatMap_cons, List.flatMap_cons, List.append_assoc, List.append_assoc,
      map_trim_splitAt_comma, ih, List.append_assoc]

/-- The pieces of a text before other ones, each with a comma and a blank before it. -/
theorem map_trim_splitAt_before (text : List Char) (parts : List (List Char)) :
    (splitAt ',' (text ++ parts.flatMap (", ".toList ++ ·))).map trim =
      (splitAt ',' text).map trim ++ parts.flatMap fun part => (splitAt ',' part).map trim := by
  induction parts generalizing text with
  | nil => rw [List.flatMap_nil, List.flatMap_nil, List.append_nil, List.append_nil]
  | cons part parts ih =>
    rw [List.flatMap_cons, List.flatMap_cons, List.append_assoc, map_trim_splitAt_comma, ih]

/-! ## Patterns between separators -/

/-- A pattern that lacks the first character of a text stands behind it. -/
theorem infix_cons_iff_of_notMem (hsome : pattern ≠ []) (hc : c ∉ pattern) :
    pattern <:+: c :: text ↔ pattern <:+: text := by
  rw [List.infix_cons_iff, or_iff_right]
  intro hbegins
  obtain ⟨d, tail, rfl⟩ := List.exists_cons_of_ne_nil hsome
  exact hc ((List.cons_prefix_cons.mp hbegins).1 ▸ List.mem_cons_self)

/-- A pattern that lacks the characters of a separator stands behind it. -/
theorem infix_append_iff_of_disjoint {separator : List Char} (hsome : pattern ≠ [])
    (hdisjoint : ∀ c ∈ separator, c ∉ pattern) :
    pattern <:+: separator ++ text ↔ pattern <:+: text := by
  induction separator with
  | nil => rfl
  | cons c separator ih =>
    obtain ⟨hc, hrest⟩ := List.forall_mem_cons.mp hdisjoint
    rw [List.cons_append, infix_cons_iff_of_notMem hsome hc, ih hrest]

/-- A pattern stands before or behind a separator, if it lacks all its characters. -/
theorem infix_append_separator_iff {separator : List Char} (hsome : pattern ≠ [])
    (hseparator : separator ≠ []) (hdisjoint : ∀ c ∈ separator, c ∉ pattern) :
    pattern <:+: front ++ separator ++ rest ↔ pattern <:+: front ∨ pattern <:+: rest := by
  rw [List.append_assoc, List.infix_append_iff, infix_append_iff_of_disjoint hsome hdisjoint]
  constructor
  · rintro (hfront | hrest | ⟨ending, beginning, hpattern, hending, hbeginning⟩)
    · exact .inl hfront
    · exact .inr hrest
    · -- What reaches into the separator would hold its first character.
      obtain ⟨c, separator, rfl⟩ := List.exists_cons_of_ne_nil hseparator
      cases beginning with
      | nil =>
        rw [hpattern, List.append_nil]
        exact .inl hending.isInfix
      | cons d beginning =>
        obtain ⟨rfl, -⟩ := List.cons_prefix_cons.mp hbeginning
        refine absurd ?_ (hdisjoint d List.mem_cons_self)
        rw [hpattern]
        exact List.mem_append_right ending List.mem_cons_self
  · rintro (hfront | hrest)
    · exact .inl hfront
    · exact .inr (.inl hrest)

/-- A pattern that lacks the characters of a separator stands in one of the texts between which the
separator is put. -/
theorem infix_intercalate_iff {separator : List Char} {texts : List (List Char)}
    (hsome : pattern ≠ []) (hseparator : separator ≠ [])
    (hdisjoint : ∀ c ∈ separator, c ∉ pattern) :
    pattern <:+: separator.intercalate texts ↔ ∃ text ∈ texts, pattern <:+: text := by
  induction texts with
  | nil => simpa using hsome
  | cons text texts ih =>
    cases texts with
    | nil => simp
    | cons other texts =>
      rw [List.intercalate_cons_cons, infix_append_separator_iff hsome hseparator hdisjoint, ih]
      exact (List.exists_mem_cons_iff _ _ _).symm

/-- A character that stands once in a separator stands between texts once less than there are texts,
apart from where it stands in the texts. -/
theorem count_intercalate {separator : List Char} {texts : List (List Char)}
    (hseparator : separator.count c = 1) (htexts : texts ≠ []) :
    (separator.intercalate texts).count c + 1 = texts.flatten.count c + texts.length := by
  induction texts with
  | nil => exact absurd rfl htexts
  | cons text texts ih =>
    cases texts with
    | nil => simp
    | cons other texts =>
      have hrest := ih (List.cons_ne_nil _ _)
      rw [List.intercalate_cons_cons, List.count_append, List.count_append, hseparator,
        List.flatten_cons, List.count_append, List.length_cons]
      omega

/-- A character that does not end the separator ends texts that are joined if it ends the last
one. -/
theorem getLast?_intercalate_eq_some_iff {separator last : List Char} {texts : List (List Char)}
    (hseparator : separator ≠ []) (hc : separator.getLast? ≠ some c) :
    (separator.intercalate (texts ++ [last])).getLast? = some c ↔ last.getLast? = some c := by
  induction texts with
  | nil => rw [List.nil_append, List.intercalate_singleton]
  | cons text texts ih =>
    obtain ⟨other, others, hothers⟩ := List.exists_cons_of_ne_nil (List.concat_ne_nil last texts)
    rw [hothers] at ih
    rw [List.cons_append, hothers, List.intercalate_cons_cons, List.getLast?_append, ← ih]
    cases hrest : (separator.intercalate (other :: others)).getLast? with
    | some d => rw [Option.some_or]
    | none =>
      rw [Option.none_or, List.getLast?_append, List.getLast?_eq_some_getLast hseparator,
        Option.some_or, ← List.getLast?_eq_some_getLast hseparator]
      exact iff_of_false hc nofun

end Stubgen.Text
