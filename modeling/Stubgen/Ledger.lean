import Stubgen.Entries

/-!
# Ledgers in order of arrival

A ledger lists its keys in the order in which they first arrived. Writing under a key
that is already there changes the value and keeps the place.
-/

namespace Stubgen

/-- Values under keys, in the order in which the keys arrived. -/
structure Ledger (α : Type) where
  /-- The keys with their values. -/
  entries : List (String × α)

namespace Ledger

variable {α : Type}

/-- The ledger without entries. -/
def empty : Ledger α :=
  ⟨[]⟩

instance : Inhabited (Ledger α) := ⟨empty⟩

/-- The value under a key. -/
def get? (ledger : Ledger α) (key : String) : Option α :=
  valueAt? key ledger.entries

/-- Revises the value at a key in a list of entries, at the end if the key is new. -/
def reviseEntry (key : String) (revise : Option α → α) : List (String × α) → List (String × α)
  | [] => [(key, revise none)]
  | entry :: rest =>
    if key = entry.1 then (entry.1, revise (some entry.2)) :: rest
    else entry :: reviseEntry key revise rest

/-- Revises the value under a key, starting from nothing if the key is new. -/
def revise (ledger : Ledger α) (key : String) (revise : Option α → α) : Ledger α :=
  ⟨reviseEntry key revise ledger.entries⟩

/-- Writes a value under a key. -/
def put (ledger : Ledger α) (key : String) (value : α) : Ledger α :=
  ledger.revise key fun _ => value

/-- The keys in the order in which they arrived. -/
def keys (ledger : Ledger α) : List String :=
  ledger.entries.map (·.1)

@[simp] theorem get?_empty (key : String) : (empty : Ledger α).get? key = none := rfl

private theorem valueAt?_reviseEntry (key other : String) (f : Option α → α)
    (list : List (String × α)) :
    valueAt? other (reviseEntry key f list) =
      if other = key then some (f (valueAt? key list)) else valueAt? other list := by
  induction list with
  | nil => rfl
  | cons head rest ih =>
    unfold reviseEntry
    split
    · next heq =>
      simp only [valueAt?_cons, heq, if_pos]
      split <;> rfl
    · next hne =>
      rw [valueAt?_cons, ih, valueAt?_cons, valueAt?_cons, if_neg hne]
      split
      · next ho => rw [if_neg (ho ▸ Ne.symm hne)]
      · rfl

/-- After a revision the key holds the revised value and every other key what it held. -/
@[simp] theorem get?_revise (ledger : Ledger α) (key other : String) (f : Option α → α) :
    (ledger.revise key f).get? other =
      if other = key then some (f (ledger.get? key)) else ledger.get? other :=
  valueAt?_reviseEntry key other f ledger.entries

private theorem keys_reviseEntry (key : String) (f : Option α → α) (list : List (String × α)) :
    (reviseEntry key f list).map (·.1) =
      if key ∈ list.map (·.1) then list.map (·.1) else list.map (·.1) ++ [key] := by
  induction list with
  | nil => rfl
  | cons head rest ih =>
    unfold reviseEntry
    split
    · next heq => simp [heq]
    · next hne =>
      rw [List.map_cons, ih]
      by_cases hmem : key ∈ rest.map (·.1)
      · simp [hmem]
      · simp [hne, hmem]

/-- A revision adds a new key at the end and moves no other. -/
theorem keys_revise (ledger : Ledger α) (key : String) (f : Option α → α) :
    (ledger.revise key f).keys =
      if key ∈ ledger.keys then ledger.keys else ledger.keys ++ [key] :=
  keys_reviseEntry key f ledger.entries

end Ledger

end Stubgen
