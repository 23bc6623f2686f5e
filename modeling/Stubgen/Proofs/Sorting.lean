import Mathlib.Data.List.Pairwise
import Stubgen.Table

/-!
# Sorting by a key

Things are sorted by texts that serve as their keys. Sorting arranges them in ascending order of the
keys, and things with the same key stay in the order in which they were.
-/

namespace Stubgen

variable {α : Type} (key : α → String)

/-- The order of keys is transitive. -/
theorem keys_trans (a b c : α) (hab : decide (key a ≤ key b) = true)
    (hbc : decide (key b ≤ key c) = true) : decide (key a ≤ key c) = true :=
  decide_eq_true (String.le_trans (of_decide_eq_true hab) (of_decide_eq_true hbc))

/-- Of two keys, one is not greater than the other. -/
theorem keys_total (a b : α) : (decide (key a ≤ key b) || decide (key b ≤ key a)) = true := by
  simpa using String.le_total (key a) (key b)

/-- After sorting, no key is greater than a later one. -/
theorem pairwise_mergeSort_key (list : List α) :
    (list.mergeSort fun a b => key a ≤ key b).Pairwise fun a b => key a ≤ key b :=
  (List.pairwise_mergeSort (keys_trans key) (keys_total key) list).imp of_decide_eq_true

/-- Sorting moves nothing past what has the same key. -/
theorem filter_mergeSort_key (list : List α) (name : String) :
    (list.mergeSort fun a b => key a ≤ key b).filter (key · = name) =
      list.filter (key · = name) := by
  have hsame : (list.filter (key · = name)).Pairwise fun a b => decide (key a ≤ key b) = true := by
    refine List.pairwise_of_forall_mem_list fun a ha b hb => decide_eq_true ?_
    have hkeys : key a = key b := (of_decide_eq_true (List.mem_filter.mp ha).2).trans
      (of_decide_eq_true (List.mem_filter.mp hb).2).symm
    exact hkeys ▸ String.le_refl (key a)
  have hsublist := (List.sublist_mergeSort (keys_trans key) (keys_total key) hsame
    List.filter_sublist).filter (key · = name)
  rw [List.filter_filter] at hsublist
  simp only [Bool.and_self] at hsublist
  exact (hsublist.eq_of_length ((List.mergeSort_perm list _).symm.filter _).length_eq).symm

/-- What things with the same key have to do with those behind them, they have to do with them after
sorting as well; of two other things, the one with the smaller key comes first. -/
theorem pairwise_mergeSort_of_same_key {list : List α} {before : α → α → Prop}
    (h : list.Pairwise fun a b => key a = key b → before a b) :
    (list.mergeSort fun a b => key a ≤ key b).Pairwise fun a b =>
      key a < key b ∨ key a = key b ∧ before a b := by
  refine List.pairwise_iff_forall_sublist.mpr fun {a b} hsublist => ?_
  have hle := List.pairwise_iff_forall_sublist.mp (pairwise_mergeSort_key key list) hsublist
  by_cases hsame : key a = key b
  · refine .inr ⟨hsame, List.pairwise_iff_forall_sublist.mp h ?_ hsame⟩
    have hfiltered := hsublist.filter (key · = key b)
    rw [filter_mergeSort_key, List.filter_eq_self.mpr (by simp [hsame])] at hfiltered
    exact hfiltered.trans List.filter_sublist
  · refine .inl ?_
    by_contra hlt
    exact hsame (String.le_antisymm hle (String.not_lt.mp hlt))

end Stubgen
