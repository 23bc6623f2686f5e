import Mathlib.Data.List.DropRight
import Stubgen.Text.Blank

/-!
# What trimming leaves

A text whose first and last characters are not blank is left as it is, blanks before and behind a
text do not count, and a beginning without blank characters stays the beginning.
-/

namespace Stubgen.Text

variable {text front : List Char} {c : Char}

/-- A text has no blank characters if a look at all of its characters finds none. -/
theorem not_blank_of_all (h : text.all (fun c => !isBlank c) = true) :
    ∀ c ∈ text, isBlank c = false := fun c hc =>
  (Bool.not_eq_true' _).mp (List.all_eq_true.mp h c hc)

/-- Trimming leaves a text that neither begins nor ends with a blank character. -/
theorem trim_of_ends (hfirst : ∀ c ∈ text.head?, isBlank c = false)
    (hlast : ∀ c ∈ text.getLast?, isBlank c = false) : trim text = text := by
  have hdrop {other : List Char} (hother : ∀ c ∈ other.head?, isBlank c = false) :
      other.dropWhile isBlank = other := by
    cases other with
    | nil => rfl
    | cons d other => exact List.dropWhile_cons_of_neg (by simp [hother d rfl])
  unfold trim trimEnd trimStart
  rw [hdrop hfirst, hdrop (by rwa [List.head?_reverse]), List.reverse_reverse]

/-- Trimming keeps the characters between the ends. -/
theorem trim_sublist (text : List Char) : (trim text).Sublist text := by
  have hstart (text : List Char) : (trimStart text).Sublist text := List.dropWhile_sublist isBlank
  have hend : (trimEnd (trimStart text)).Sublist (trimStart text) := by
    rw [← List.reverse_sublist, trimEnd, List.reverse_reverse]
    exact List.dropWhile_sublist isBlank
  exact hend.trans (hstart text)

/-- A blank character at the beginning is trimmed. -/
theorem trim_cons_of_blank (hblank : isBlank c = true) : trim (c :: text) = trim text := by
  rw [trim, trimStart, List.dropWhile_cons_of_pos hblank, trim, trimStart]

/-- A text begins as before when it is trimmed, as far as it begins without blank characters. -/
theorem prefix_trim (hbegins : front <+: text) (hfront : ∀ c ∈ front, isBlank c = false) :
    front <+: trim text := by
  obtain ⟨rest, rfl⟩ := hbegins
  cases front with
  | nil => exact List.nil_prefix
  | cons d front =>
    have hstart : trimStart (d :: front ++ rest) = d :: front ++ rest :=
      List.dropWhile_cons_of_neg (by simp [hfront d List.mem_cons_self])
    rw [trim, hstart, trimEnd, List.reverse_append, List.dropWhile_append]
    split
    · -- Nothing is left of the rest, and the last character of the beginning is not blank.
      have hkept : (d :: front).reverse.dropWhile isBlank = (d :: front).reverse := by
        rw [List.dropWhile_eq_self_iff]
        intro hpos
        simpa using hfront _ (List.mem_reverse.mp (List.getElem_mem hpos))
      exact ⟨[], by rw [List.append_nil, hkept, List.reverse_reverse]⟩
    · rw [List.reverse_append, List.reverse_reverse]
      exact List.prefix_append _ _

/-! ## The end of a text -/

/-- Nothing is left of blank characters. -/
theorem trimEnd_eq_nil_iff : trimEnd text = [] ↔ ∀ c ∈ text, isBlank c = true :=
  List.rdropWhile_eq_nil_iff

/-- What is trimmed at the end is blank. -/
theorem exists_append_of_trimEnd (text : List Char) :
    ∃ blanks, text = trimEnd text ++ blanks ∧ ∀ c ∈ blanks, isBlank c = true :=
  ⟨text.rtakeWhile isBlank, List.rdropWhile_append_rtakeWhile.symm,
    fun _ hmem => List.mem_rtakeWhile_imp hmem⟩

/-- The end of a text is trimmed as far as something is left of it, and otherwise the text before
it. -/
theorem trimEnd_append (text tail : List Char) :
    trimEnd (text ++ tail) = if trimEnd tail = [] then trimEnd text else text ++ trimEnd tail := by
  unfold trimEnd
  rw [List.reverse_append, List.dropWhile_append]
  simp only [List.isEmpty_iff, List.reverse_eq_nil_iff]
  split
  · rfl
  · rw [List.reverse_append, List.reverse_reverse]

/-- Blank characters behind a text are trimmed. -/
theorem trim_append_of_blank {blanks : List Char} (text : List Char)
    (h : ∀ c ∈ blanks, isBlank c = true) : trim (text ++ blanks) = trim text := by
  have hend : trimEnd blanks = [] := trimEnd_eq_nil_iff.mpr h
  have hstart : trimStart blanks = [] := List.dropWhile_eq_nil_iff.mpr h
  unfold trim
  rw [trimStart, List.dropWhile_append, ← trimStart, ← trimStart]
  split
  · next hempty => rw [hstart, List.isEmpty_iff.mp hempty]
  · rw [trimEnd_append, if_pos hend]

/-- Trimming leaves a text exactly if it neither begins nor ends with a blank character. -/
theorem trim_eq_self_iff :
    trim text = text ↔
      (∀ c ∈ text.head?, isBlank c = false) ∧ ∀ c ∈ text.getLast?, isBlank c = false := by
  refine ⟨fun h => ⟨fun c hc => ?_, fun c hc => ?_⟩, fun ⟨hfirst, hlast⟩ => trim_of_ends hfirst hlast⟩
  · obtain ⟨rest, rfl⟩ := List.head?_eq_some_iff.mp hc
    refine Bool.not_eq_true _ ▸ fun hblank => ?_
    rw [trim_cons_of_blank hblank] at h
    have hlength := (trim_sublist rest).length_le
    rw [h, List.length_cons] at hlength
    omega
  · obtain ⟨front, rfl⟩ := List.getLast?_eq_some_iff.mp hc
    refine Bool.not_eq_true _ ▸ fun hblank => ?_
    rw [trim_append_of_blank front (by simpa using hblank)] at h
    have hlength := (trim_sublist front).length_le
    rw [h, List.length_append, List.length_singleton] at hlength
    omega

end Stubgen.Text
