import Stubgen.Entries

/-!
# Tables in key order

A table holds one value per key and lists them in ascending byte order of the keys.
Two tables that answer every lookup alike are equal, so a table is determined by what
it holds and not by how it was filled.
-/

namespace Stubgen

/-- Values under distinct keys, in ascending order of the keys. -/
structure Table (α : Type) where
  /-- The keys with their values. -/
  entries : List (String × α)
  /-- Every key is smaller than the keys after it. -/
  ascending : entries.Pairwise fun a b => a.1 < b.1

namespace Table

variable {α β : Type}

/-- Puts a value at the place of its key in an ascending list. -/
def insertEntry (key : String) (value : α) : List (String × α) → List (String × α)
  | [] => [(key, value)]
  | entry :: rest =>
    if key < entry.1 then (key, value) :: entry :: rest
    else if key = entry.1 then (key, value) :: rest
    else entry :: insertEntry key value rest

/-- Between two strings that are not in order and not equal, the other order holds. -/
private theorem lt_of_not_lt_of_ne {a b : String} (hlt : ¬a < b) (hne : a ≠ b) : b < a := by
  have hle : b ≤ a := hlt
  by_cases h : b < a
  · exact h
  · exact absurd (String.le_antisymm h hle) hne

private theorem fst_of_mem_insertEntry {key : String} {value : α} {list : List (String × α)}
    {entry : String × α} (h : entry ∈ insertEntry key value list) :
    entry.1 = key ∨ entry ∈ list := by
  induction list with
  | nil =>
    simp only [insertEntry, List.mem_singleton] at h
    exact .inl (by rw [h])
  | cons head rest ih =>
    unfold insertEntry at h
    split at h
    · rcases List.mem_cons.mp h with rfl | h
      · exact .inl rfl
      · exact .inr h
    · split at h
      · rcases List.mem_cons.mp h with rfl | h
        · exact .inl rfl
        · exact .inr (List.mem_cons_of_mem _ h)
      · rcases List.mem_cons.mp h with rfl | h
        · exact .inr List.mem_cons_self
        · exact (ih h).imp_right (List.mem_cons_of_mem _)

private theorem pairwise_insertEntry (key : String) (value : α) {list : List (String × α)}
    (h : list.Pairwise fun a b => a.1 < b.1) :
    (insertEntry key value list).Pairwise fun a b => a.1 < b.1 := by
  induction list with
  | nil => simp [insertEntry]
  | cons head rest ih =>
    obtain ⟨hhead, hrest⟩ := List.pairwise_cons.mp h
    unfold insertEntry
    split
    · next hlt =>
      refine List.pairwise_cons.mpr ⟨fun entry hentry => ?_, h⟩
      rcases List.mem_cons.mp hentry with rfl | hentry
      · exact hlt
      · exact String.lt_trans hlt (hhead entry hentry)
    · next hlt =>
      split
      · next heq =>
        exact List.pairwise_cons.mpr ⟨fun entry hentry => heq ▸ hhead entry hentry, hrest⟩
      · next hne =>
        refine List.pairwise_cons.mpr ⟨fun entry hentry => ?_, ih hrest⟩
        rcases fst_of_mem_insertEntry hentry with heq | hentry
        · exact heq ▸ lt_of_not_lt_of_ne hlt hne
        · exact hhead entry hentry

/-- The table without entries. -/
def empty : Table α :=
  ⟨[], .nil⟩

instance : Inhabited (Table α) := ⟨empty⟩

/-- The value under a key. -/
def get? (table : Table α) (key : String) : Option α :=
  valueAt? key table.entries

/-- Whether a key has a value. -/
def contains (table : Table α) (key : String) : Bool :=
  (table.get? key).isSome

/-- Puts a value under a key, in place of the value that was there. -/
def insert (table : Table α) (key : String) (value : α) : Table α :=
  ⟨insertEntry key value table.entries, pairwise_insertEntry key value table.ascending⟩

/-- The keys in ascending order. -/
def keys (table : Table α) : List String :=
  table.entries.map (·.1)

/-- The values in the order of their keys. -/
def values (table : Table α) : List α :=
  table.entries.map (·.2)

/-- The number of keys. -/
def size (table : Table α) : Nat :=
  table.entries.length

/-- Whether the table has no entry. -/
def isEmpty (table : Table α) : Bool :=
  table.entries.isEmpty

@[simp] theorem get?_empty (key : String) : (empty : Table α).get? key = none := rfl

private theorem valueAt?_insertEntry (key other : String) (value : α) (list : List (String × α)) :
    valueAt? other (insertEntry key value list) =
      if other = key then some value else valueAt? other list := by
  induction list with
  | nil => rfl
  | cons head rest ih =>
    unfold insertEntry
    split
    · rfl
    · split
      · next heq =>
        rw [valueAt?_cons, valueAt?_cons, ← heq]
        split <;> rfl
      · next hne =>
        rw [valueAt?_cons, ih, valueAt?_cons]
        split
        · next ho => rw [if_neg (ho ▸ Ne.symm hne)]
        · rfl

/-- A lookup after an insertion sees the new value, and every other key as before. -/
@[simp] theorem get?_insert (table : Table α) (key other : String) (value : α) :
    (table.insert key value).get? other = if other = key then some value else table.get? other :=
  valueAt?_insertEntry key other value table.entries

/-- After an insertion the key has a value, and so has every key that had one. -/
@[simp] theorem contains_insert (table : Table α) (key other : String) (value : α) :
    (table.insert key value).contains other = (decide (other = key) || table.contains other) := by
  unfold contains
  rw [get?_insert]
  by_cases h : other = key <;> simp [h]

private theorem valueAt?_eq_none_of_lt {key : String} {list : List (String × α)}
    (h : ∀ entry ∈ list, key < entry.1) : valueAt? key list = none :=
  valueAt?_eq_none_iff.mpr fun entry hentry heq =>
    String.lt_irrefl entry.1 (heq ▸ h entry hentry)

private theorem not_lt_of_valueAt?_eq {x y : String × α} {a b : List (String × α)}
    (hy : ∀ entry ∈ b, y.1 < entry.1)
    (h : valueAt? x.1 (x :: a) = valueAt? x.1 (y :: b)) : ¬x.1 < y.1 := by
  intro hlt
  have hnone : valueAt? x.1 (y :: b) = none :=
    valueAt?_eq_none_of_lt fun entry hentry => by
      rcases List.mem_cons.mp hentry with rfl | hentry
      · exact hlt
      · exact String.lt_trans hlt (hy entry hentry)
  rw [hnone, valueAt?_cons, if_pos rfl] at h
  exact nomatch h

private theorem eq_of_valueAt?_eq {a b : List (String × α)}
    (ha : a.Pairwise fun x y => x.1 < y.1) (hb : b.Pairwise fun x y => x.1 < y.1)
    (h : ∀ key, valueAt? key a = valueAt? key b) : a = b := by
  induction a generalizing b with
  | nil =>
    cases b with
    | nil => rfl
    | cons y b =>
      have := h y.1
      rw [valueAt?_cons, if_pos rfl] at this
      exact nomatch this
  | cons x a ih =>
    obtain ⟨hx, ha⟩ := List.pairwise_cons.mp ha
    cases b with
    | nil =>
      have := h x.1
      rw [valueAt?_cons, if_pos rfl] at this
      exact nomatch this
    | cons y b =>
      obtain ⟨hy, hb⟩ := List.pairwise_cons.mp hb
      have hkey : x.1 = y.1 :=
        Decidable.byContradiction fun hne =>
          not_lt_of_valueAt?_eq hx (h y.1).symm
            (lt_of_not_lt_of_ne (not_lt_of_valueAt?_eq hy (h x.1)) hne)
      have hvalue : x.2 = y.2 := by
        have := h x.1
        rwa [valueAt?_cons, valueAt?_cons, if_pos rfl, if_pos hkey, Option.some.injEq] at this
      rw [Prod.ext hkey hvalue, ih ha hb fun key => ?_]
      by_cases hother : key = x.1
      · rw [hother, valueAt?_eq_none_of_lt hx, hkey, valueAt?_eq_none_of_lt hy]
      · have := h key
        rwa [valueAt?_cons, valueAt?_cons, if_neg hother, if_neg (hkey ▸ hother)] at this

/-- Tables that answer every lookup alike are equal. -/
theorem ext_get? {a b : Table α} (h : ∀ key, a.get? key = b.get? key) : a = b := by
  obtain ⟨list, hlist⟩ := a
  obtain ⟨other, hother⟩ := b
  obtain rfl := eq_of_valueAt?_eq hlist hother h
  rfl

/-- An entry of the table is what a lookup of its key finds. -/
theorem mem_entries_iff {table : Table α} {key : String} {value : α} :
    (key, value) ∈ table.entries ↔ table.get? key = some value := by
  refine ⟨fun hmem => ?_, mem_of_valueAt?⟩
  obtain ⟨list, h⟩ := table
  simp only [get?] at hmem ⊢
  induction list with
  | nil => simp at hmem
  | cons head rest ih =>
    obtain ⟨hhead, hrest⟩ := List.pairwise_cons.mp h
    rw [valueAt?_cons]
    rcases List.mem_cons.mp hmem with rfl | hmem
    · simp
    · have hlt : head.1 < key := hhead (key, value) hmem
      have hne : key ≠ head.1 := fun heq => String.lt_irrefl head.1 (heq ▸ hlt)
      rw [if_neg hne]
      exact ih hrest hmem

/-- A value of the table is what a lookup of some key finds. -/
theorem mem_values_iff {table : Table α} {value : α} :
    value ∈ table.values ↔ ∃ key, table.get? key = some value := by
  simp [values, mem_entries_iff]

end Table

end Stubgen
