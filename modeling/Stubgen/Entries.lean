/-!
# Entries under keys

A list of pairs is read as values under keys; of two pairs with one key the first counts.
-/

namespace Stubgen

variable {α : Type}

/-- The value of the first pair with the given key. -/
def valueAt? (key : String) : List (String × α) → Option α
  | [] => none
  | entry :: rest => if key = entry.1 then some entry.2 else valueAt? key rest

@[simp] theorem valueAt?_nil (key : String) : valueAt? key ([] : List (String × α)) = none := rfl

theorem valueAt?_cons (key : String) (entry : String × α) (rest : List (String × α)) :
    valueAt? key (entry :: rest) = if key = entry.1 then some entry.2 else valueAt? key rest :=
  rfl

/-- A key has no value if no pair carries it. -/
theorem valueAt?_eq_none_iff {key : String} {list : List (String × α)} :
    valueAt? key list = none ↔ ∀ entry ∈ list, key ≠ entry.1 := by
  induction list with
  | nil => simp
  | cons head rest ih =>
    rw [valueAt?_cons]
    split
    · next h => simp [h]
    · next h => simp only [ih, List.mem_cons, forall_eq_or_imp, ne_eq, h, not_false_eq_true,
        true_and]

/-- A value that is found stands in the list under its key. -/
theorem mem_of_valueAt? {key : String} {value : α} {list : List (String × α)}
    (h : valueAt? key list = some value) : (key, value) ∈ list := by
  induction list with
  | nil => simp at h
  | cons head rest ih =>
    rw [valueAt?_cons] at h
    split at h
    · next heq =>
      obtain ⟨rfl⟩ := h
      exact List.mem_cons.mpr (.inl (by rw [heq]))
    · exact List.mem_cons_of_mem _ (ih h)

end Stubgen
