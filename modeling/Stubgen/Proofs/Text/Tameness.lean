import Mathlib.Data.List.Basic
import Stubgen.DocLink
import Stubgen.Proofs.Text.Trimming
import Stubgen.Tag

/-!
# Tame texts

Between triple quotes, a text stands for itself as long as it holds no double quote, no backslash
and no line feed. Such a text is tame. What is cut out of a tame text is tame, texts that are put
together from tame ones are, and so are a tame text in lower case and the links and descriptions
that are made of tame names.
-/

namespace Stubgen

/-- The characters that end a documentation block or one of its lines, or that change the meaning of
the character behind them. -/
def breakers : List Char :=
  ['"', '\\', '\n']

/-- The text holds none of these characters. -/
def IsTame (text : String) : Prop :=
  ∀ c ∈ text.toList, c ∉ breakers

instance : DecidablePred IsTame :=
  fun text => List.decidableBAll (· ∉ breakers) text.toList

variable {text other name tag module className : String} {method? : Option String}

/-! ## Parts and wholes -/

/-- Texts that are put together are tame if both of them are. -/
theorem isTame_append : IsTame (text ++ other) ↔ IsTame text ∧ IsTame other := by
  unfold IsTame
  rw [String.toList_append]
  exact List.forall_mem_append

/-- A text with characters of a tame one only is tame. -/
theorem IsTame.of_subset {part : List Char} (h : IsTame text) (hpart : part ⊆ text.toList) :
    IsTame (String.ofList part) := by
  intro c hc
  rw [String.toList_ofList] at hc
  exact h c (hpart hc)

/-- Without the blanks around it, a tame text is tame. -/
theorem IsTame.trimmed (h : IsTame text) : IsTame (Text.trimmed text) :=
  h.of_subset (Text.trim_sublist text.toList).subset

/-- What follows a start that is dropped ends the text. -/
theorem Text.dropStart_suffix (start text : List Char) : dropStart start text <:+ text := by
  unfold dropStart dropStart?
  split
  · exact List.drop_suffix start.length text
  · exact List.suffix_rfl

/-! ## Lower case -/

/-- Large code points are none of the breaking characters. -/
theorem ofNat_notMem_breakers {n : Nat} (h : 0x5c < n) : Char.ofNat n ∉ breakers := by
  intro hmem
  have hpoint : ∀ c ∈ breakers, 0 < c.toNat ∧ c.toNat ≤ 0x5c := by simp [breakers]
  have hsmall := hpoint (Char.ofNat n) hmem
  have hcases : (Char.ofNat n).toNat = n ∨ (Char.ofNat n).toNat = 0 := by
    unfold Char.ofNat
    by_cases hvalid : n.isValidChar
    · rw [dif_pos hvalid]
      exact .inl rfl
    · rw [dif_neg hvalid]
      exact .inr rfl
  omega

/-- The small letters of all runs are large code points. -/
theorem lt_of_mem_caseRuns {run : Text.CaseRun} (h : run ∈ Text.caseRuns) :
    0x5c < (run.first : Int) + run.shift := by
  have hall : (Text.caseRuns.all fun run => decide (0x5c < (run.first : Int) + run.shift)) := by
    decide +kernel
  exact decide_eq_true_iff.mp (Array.all_eq_true_iff_forall_mem.mp hall run h)

/-- A character has a breaking one as its small letter only if it is one. -/
theorem mem_breakers_of_lowerChar {c : Char} (h : Text.lowerChar c ∈ breakers) : c ∈ breakers := by
  unfold Text.lowerChar at h
  split at h
  · next hascii =>
    have hall : ∀ n < 0x80, (Char.ofNat n).toLower ∈ breakers → Char.ofNat n ∈ breakers := by
      decide +kernel
    have hpoint := hall c.toNat hascii
    rw [Char.ofNat_toNat] at hpoint
    exact hpoint h
  · split at h
    · next run hrun =>
      have hcontains : run.first ≤ c.toNat := by
        have hfound := Array.find?_some hrun
        simp only [Text.CaseRun.contains, Bool.and_eq_true, decide_eq_true_eq] at hfound
        exact hfound.1.1
      have hshift := lt_of_mem_caseRuns (Array.mem_of_find?_eq_some hrun)
      exact absurd h (ofNat_notMem_breakers (by omega))
    · exact h

/-- A text in lower case holds a breaking character only if the text does. -/
theorem exists_breaker_of_lowerAfter {c : Char} (hc : c ∈ breakers) {before text : List Char}
    (h : c ∈ Text.lowerAfter before text) : ∃ d ∈ text, d ∈ breakers := by
  induction text generalizing before with
  | nil => exact absurd h List.not_mem_nil
  | cons d text ih =>
    rw [Text.lowerAfter, List.mem_append] at h
    rcases h with hsmall | hrest
    · refine ⟨d, List.mem_cons_self, ?_⟩
      split at hsmall
      · have hnone : ∀ e ∈ ['i', '\u0307'], e ∉ breakers := by simp [breakers]
        exact absurd hc (hnone c hsmall)
      · split at hsmall
        · have hnone : '\u03c2' ∉ breakers ∧ '\u03c3' ∉ breakers := by decide +kernel
          rw [List.mem_singleton.mp hsmall] at hc
          split at hc
          · exact absurd hc hnone.1
          · exact absurd hc hnone.2
        · exact mem_breakers_of_lowerChar (List.mem_singleton.mp hsmall ▸ hc)
    · obtain ⟨e, he, hbreaks⟩ := ih hrest
      exact ⟨e, List.mem_cons_of_mem d he, hbreaks⟩

/-- A tame text is tame in lower case. -/
theorem IsTame.lowercase (h : IsTame text) : IsTame (Text.lowercase text) := by
  intro c hc hbreaks
  rw [Text.lowercase, String.toList_ofList] at hc
  obtain ⟨d, hd, hdbreaks⟩ := exists_breaker_of_lowerAfter hbreaks hc
  exact h d hd hdbreaks

/-! ## Links and descriptions -/

/-- With hyphens, a tame text is tame. -/
theorem IsTame.hyphenated (h : IsTame text) : IsTame (DocLink.hyphenated text) := by
  intro c hc
  rw [DocLink.hyphenated, String.toList_ofList] at hc
  obtain ⟨d, hd, rfl⟩ := List.mem_map.mp hc
  split
  · decide
  · exact h d hd

/-- The link to tame names is tame. -/
theorem IsTame.page (style : DocStyle) (hmodule : IsTame module) (hclass : IsTame className)
    (hmethod : ∀ method ∈ method?, IsTame method) :
    IsTame (DocLink.page style module className method?) := by
  have hsite : IsTame style.site := by cases style <;> decide
  have hempty : IsTame "" := by decide +kernel
  have hpage := hclass.lowercase
  cases style with
  | pygtk =>
    have hanchor :
        IsTame ((method?.map (DocLink.pygtkAnchor (Text.lowercase className))).getD "") := by
      cases method? with
      | none => exact hempty
      | some method =>
        rw [Option.map_some, Option.getD_some, DocLink.pygtkAnchor]
        split
        · exact isTame_append.mpr ⟨by decide, hpage⟩
        · have hname := (hmethod method rfl).lowercase.hyphenated
          simp only [isTame_append]
          exact ⟨⟨⟨by decide, hpage⟩, by decide⟩, hname⟩
    simp only [DocLink.page, isTame_append]
    exact ⟨⟨⟨⟨hsite, by decide⟩, hpage⟩, by decide⟩, hanchor⟩
  | gnome =>
    have hdirectory : IsTame (DocLink.gnomeDirectory module) := by
      rw [DocLink.gnomeDirectory]
      split
      · decide
      · exact hmodule.lowercase
    have hanchor :
        IsTame ((method?.map fun method => "#" ++ DocLink.hyphenated method).getD "") := by
      cases method? with
      | none => exact hempty
      | some method => exact isTame_append.mpr ⟨by decide, (hmethod method rfl).hyphenated⟩
    simp only [DocLink.page, isTame_append]
    exact ⟨⟨⟨⟨⟨⟨hsite, by decide⟩, hdirectory⟩, by decide⟩, hclass⟩, by decide⟩, hanchor⟩

/-- A line with a link to tame names is tame. -/
theorem isTame_of_line? {style : DocStyle} {module? : Option String} {line : String}
    (hmodule : ∀ module ∈ module?, IsTame module) (hclass : IsTame className)
    (hmethod : ∀ method ∈ method?, IsTame method)
    (h : DocLink.line? style module? className method? = some line) : IsTame line := by
  obtain ⟨url, hurl, rfl⟩ := Option.map_eq_some_iff.mp h
  obtain ⟨module, rfl, rfl⟩ := Option.map_eq_some_iff.mp hurl
  exact isTame_append.mpr ⟨by decide, .page style (hmodule module rfl) hclass hmethod⟩

/-- The description of a tame tag is tame if classes are shown under tame names. -/
theorem IsTame.describe {shown : String → String}
    (hshown : ∀ name, IsTame name → IsTame (shown name)) (htag : IsTame tag) :
    IsTame (Tag.describe shown tag) := by
  have hsense := htag.trimmed
  unfold Tag.describe Tag.sense
  generalize Text.trimmed tag = text at hsense
  fun_cases Tag.senseOf text with
  | case9 _ _ _ _ _ _ _ c words htext =>
    refine hsense.of_subset fun d hd => ?_
    rw [htext]
    exact List.mem_cons_of_mem '!' hd
  | case11 =>
    have hname : (Tag.className text.toList).Sublist text.toList := by
      have hdropped := (List.dropWhile_sublist (l := text.toList.reverse) (· = '*')).reverse
      rw [List.reverse_reverse] at hdropped
      exact (Text.dropStart_suffix _ _).sublist.trans hdropped
    exact isTame_append.mpr ⟨by decide, hshown _ (hsense.of_subset hname.subset)⟩
  | _ =>
    dsimp only
    decide

end Stubgen
