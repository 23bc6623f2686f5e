import Mathlib.Data.List.Basic
import Stubgen.Ledger
import Stubgen.Table

/-!
# Entries that arrive one after the other

Of the entries that arrive under one key, the last one counts. A table that takes up entries in
their order holds the last value of every key, and so does a ledger, which also remembers the order
in which the keys first arrived.
-/

namespace Stubgen

variable {α β : Type} {key : String} {value : α} {list rest : List (String × α)}

/-- The value of the last pair with the given key. -/
def lastValueAt? (key : String) (list : List (String × α)) : Option α :=
  valueAt? key list.reverse

/-! ## First and last values -/

/-- A key that has no value in front is looked up behind. -/
theorem valueAt?_append (key : String) (list rest : List (String × α)) :
    valueAt? key (list ++ rest) = (valueAt? key list).or (valueAt? key rest) := by
  induction list with
  | nil => rfl
  | cons entry list ih =>
    rw [List.cons_append, valueAt?_cons, valueAt?_cons, ih]
    split
    · rfl
    · rfl

/-- The value of a key is that of an entry before which the key does not occur. -/
theorem valueAt?_eq_some_iff :
    valueAt? key list = some value ↔
      ∃ before after, list = before ++ (key, value) :: after ∧
        ∀ earlier ∈ before, earlier.1 ≠ key := by
  induction list with
  | nil => simp
  | cons entry rest ih =>
    rw [valueAt?_cons]
    split
    · next hfirst =>
      constructor
      · rintro ⟨⟩
        exact ⟨[], rest, by rw [hfirst, List.nil_append],
          fun _ hmem => absurd hmem List.not_mem_nil⟩
      · rintro ⟨before, after, hsplit, hbefore⟩
        cases before with
        | nil =>
          obtain ⟨rfl, _⟩ := List.cons.inj hsplit
          rfl
        | cons other before =>
          obtain ⟨rfl, _⟩ := List.cons.inj hsplit
          exact absurd hfirst.symm (hbefore entry List.mem_cons_self)
    · next hother =>
      rw [ih]
      constructor
      · rintro ⟨before, after, rfl, hbefore⟩
        exact ⟨entry :: before, after, rfl, List.forall_mem_cons.mpr ⟨Ne.symm hother, hbefore⟩⟩
      · rintro ⟨before, after, hsplit, hbefore⟩
        cases before with
        | nil =>
          obtain ⟨rfl, _⟩ := List.cons.inj hsplit
          exact absurd rfl hother
        | cons other before =>
          obtain ⟨_, rfl⟩ := List.cons.inj hsplit
          exact ⟨before, after, rfl, (List.forall_mem_cons.mp hbefore).2⟩

/-- The last value of a key is that of an entry after which the key does not occur. -/
theorem lastValueAt?_eq_some_iff :
    lastValueAt? key list = some value ↔
      ∃ before after, list = before ++ (key, value) :: after ∧
        ∀ later ∈ after, later.1 ≠ key := by
  rw [lastValueAt?, valueAt?_eq_some_iff]
  constructor
  · rintro ⟨after, before, hsplit, hafter⟩
    refine ⟨before.reverse, after.reverse, ?_, by simpa using hafter⟩
    rw [← List.reverse_reverse list, hsplit]
    simp
  · rintro ⟨before, after, rfl, hafter⟩
    exact ⟨after.reverse, before.reverse, by simp, by simpa using hafter⟩

/-- The first entry counts only if no later one has its key. -/
theorem lastValueAt?_cons (key : String) (entry : String × α) (rest : List (String × α)) :
    lastValueAt? key (entry :: rest) =
      (lastValueAt? key rest).or (if key = entry.1 then some entry.2 else none) := by
  rw [lastValueAt?, List.reverse_cons, valueAt?_append]
  rfl

/-- Entries whose keys are of one kind keep their last values among all entries. -/
theorem lastValueAt?_filter (kind : String → Bool) (key : String) (list : List (String × α)) :
    lastValueAt? key (list.filter fun entry => kind entry.1) =
      if kind key = true then lastValueAt? key list else none := by
  induction list with
  | nil => simp [lastValueAt?]
  | cons entry rest ih =>
    rw [List.filter_cons, lastValueAt?_cons]
    by_cases hentry : kind entry.1 = true
    · rw [if_pos hentry, lastValueAt?_cons, ih]
      by_cases hkey : kind key = true
      · simp only [if_pos hkey]
      · have hne : key ≠ entry.1 := fun heq => hkey (heq ▸ hentry)
        rw [if_neg hkey, if_neg hkey, if_neg hne, Option.or_none]
    · rw [if_neg hentry, ih]
      by_cases hkey : kind key = true
      · have hne : key ≠ entry.1 := fun heq => hentry (heq ▸ hkey)
        rw [if_pos hkey, if_pos hkey, if_neg hne, Option.or_none]
      · rw [if_neg hkey, if_neg hkey]

/-- The last value of a key when all values are rewritten. -/
theorem lastValueAt?_map (f : String → α → β) (key : String) (list : List (String × α)) :
    lastValueAt? key (list.map fun entry => (entry.1, f entry.1 entry.2)) =
      (lastValueAt? key list).map (f key) := by
  induction list with
  | nil => rfl
  | cons entry rest ih =>
    rw [List.map_cons, lastValueAt?_cons, lastValueAt?_cons, ih, Option.map_or]
    congr 1
    split
    · next heq => rw [heq, Option.map_some]
    · rfl

/-- A key is among those of a list exactly if it has a value there. -/
theorem isSome_valueAt?_iff : (valueAt? key list).isSome = true ↔ key ∈ list.map (·.1) := by
  cases hvalue : valueAt? key list with
  | none =>
    refine iff_of_false Bool.false_ne_true fun hmem => ?_
    obtain ⟨entry, hentry, heq⟩ := List.mem_map.mp hmem
    exact valueAt?_eq_none_iff.mp hvalue entry hentry heq.symm
  | some value => exact iff_of_true rfl (List.mem_map.mpr ⟨_, mem_of_valueAt? hvalue, rfl⟩)

/-! ## Tables and ledgers that take up entries -/

/-- A table contains the keys that it lists. -/
theorem Table.mem_keys_iff {table : Table α} : key ∈ table.keys ↔ table.contains key = true :=
  isSome_valueAt?_iff.symm

/-- After a table has taken up entries, every key has its last value, and keys without an entry have
the value that they had. -/
theorem Table.get?_foldl_insert (table : Table α) (list : List (String × α)) (key : String) :
    (list.foldl (fun table entry => table.insert entry.1 entry.2) table).get? key =
      (lastValueAt? key list).or (table.get? key) := by
  induction list generalizing table with
  | nil => rfl
  | cons entry rest ih =>
    rw [List.foldl_cons, ih, Table.get?_insert, lastValueAt?_cons, Option.or_assoc]
    congr 1
    split
    · rfl
    · rfl

namespace Ledger

/-- The ledger after entries have been written into it, one after the other. -/
def putAll (ledger : Ledger α) (list : List (String × α)) : Ledger α :=
  list.foldl (fun ledger entry => ledger.put entry.1 entry.2) ledger

/-- How a ledger goes on from a first one with what a second one holds: a key of both keeps the
place that it has in the first and takes the value that it has in the second. -/
structure Continues (first second joined : Ledger α) : Prop where
  /-- The entries of the second ledger have been written in their order. -/
  written : joined = first.putAll second.entries
  /-- The keys that only the second ledger has come behind, in their order. -/
  keys_eq : joined.keys = first.keys ++ second.keys.filter (· ∉ first.keys)
  /-- The second ledger decides about its keys, and the first one about the others. -/
  get?_eq : ∀ key, joined.get? key = (second.get? key).or (first.get? key)

variable {ledger first second : Ledger α} {list : List (String × α)}

/-- After a value has been written, its key holds it. -/
theorem get?_put (ledger : Ledger α) (key other : String) (value : α) :
    (ledger.put key value).get? other = if other = key then some value else ledger.get? other :=
  get?_revise ledger key other fun _ => value

/-- A key is written at its place, or at the end if it is new. -/
theorem keys_put (ledger : Ledger α) (key : String) (value : α) :
    (ledger.put key value).keys =
      if key ∈ ledger.keys then ledger.keys else ledger.keys ++ [key] :=
  keys_revise ledger key fun _ => value

/-- No key stands twice in a ledger that is revised, if none did before. -/
theorem nodup_keys_revise (h : ledger.keys.Nodup) (key : String) (f : Option α → α) :
    (ledger.revise key f).keys.Nodup := by
  rw [keys_revise]
  split
  · exact h
  · next hnew =>
    refine List.nodup_append.mpr ⟨h, List.pairwise_singleton _ _, ?_⟩
    intro other hother added hadded
    obtain rfl := List.mem_singleton.mp hadded
    exact fun heq => hnew (heq ▸ hother)

/-- No key stands twice in a ledger into which a value is written, if none did before. -/
theorem nodup_keys_put (h : ledger.keys.Nodup) (key : String) (value : α) :
    (ledger.put key value).keys.Nodup :=
  nodup_keys_revise h key fun _ => value

/-- The entries are told by the keys in their order and the values. -/
theorem entries_eq_filterMap (h : ledger.keys.Nodup) :
    ledger.entries = ledger.keys.filterMap fun key => (ledger.get? key).map (key, ·) := by
  obtain ⟨list⟩ := ledger
  unfold keys get? at *
  induction list with
  | nil => rfl
  | cons entry rest ih =>
    obtain ⟨hentry, hrest⟩ := List.nodup_cons.mp h
    have hlater : ∀ key ∈ rest.map (·.1),
        (valueAt? key (entry :: rest)).map (key, ·) = (valueAt? key rest).map (key, ·) := by
      intro key hkey
      have hne : key ≠ entry.1 := ne_of_mem_of_not_mem hkey hentry
      rw [valueAt?_cons, if_neg hne]
    rw [List.map_cons, List.filterMap_cons_some (by rw [valueAt?_cons, if_pos rfl]; rfl),
      List.filterMap_congr hlater]
    exact congrArg (entry :: ·) (ih hrest)

/-- Two ledgers with the same keys in the same order and the same values are equal. -/
theorem ext_of_keys (hkeys : first.keys = second.keys) (hfirst : first.keys.Nodup)
    (hvalues : ∀ key, first.get? key = second.get? key) : first = second := by
  have hentries : first.entries = second.entries := by
    rw [entries_eq_filterMap hfirst, entries_eq_filterMap (hkeys ▸ hfirst), hkeys]
    simp only [hvalues]
  cases first
  exact congrArg mk hentries

/-- No key stands twice in a ledger into which values are written, if none did before. -/
theorem nodup_keys_putAll (h : ledger.keys.Nodup) (list : List (String × α)) :
    (ledger.putAll list).keys.Nodup := by
  induction list generalizing ledger with
  | nil => exact h
  | cons entry rest ih => exact ih (nodup_keys_put h entry.1 entry.2)

/-- After entries have been written, every key has its last value, and keys without an entry have
the value that they had. -/
theorem get?_putAll (ledger : Ledger α) (list : List (String × α)) (key : String) :
    (ledger.putAll list).get? key = (lastValueAt? key list).or (ledger.get? key) := by
  induction list generalizing ledger with
  | nil => rfl
  | cons entry rest ih =>
    have hput : (if key = entry.1 then some entry.2 else ledger.get? key) =
        (if key = entry.1 then some entry.2 else none).or (ledger.get? key) := by
      split
      · rfl
      · rfl
    rw [putAll, List.foldl_cons, ← putAll, ih, get?_put, lastValueAt?_cons, Option.or_assoc, hput]

/-- Entries with new keys come behind the entries of the ledger, and the others change no key. -/
theorem keys_putAll (ledger : Ledger α)
    (hlist : (list.map (·.1)).Nodup) :
    (ledger.putAll list).keys = ledger.keys ++ (list.map (·.1)).filter (· ∉ ledger.keys) := by
  induction list generalizing ledger with
  | nil => exact (List.append_nil _).symm
  | cons entry rest ih =>
    obtain ⟨hentry, hrest⟩ := List.nodup_cons.mp hlist
    rw [putAll, List.foldl_cons, ← putAll, ih _ hrest, keys_put, List.map_cons]
    split
    · next hmem => rw [List.filter_cons_of_neg (by simpa using hmem)]
    · next hnew =>
      have hlater : ∀ key ∈ rest.map (·.1),
          decide (key ∉ ledger.keys ++ [entry.1]) = decide (key ∉ ledger.keys) := by
        intro key hkey
        have hne : key ≠ entry.1 := ne_of_mem_of_not_mem hkey hentry
        simp [hne]
      rw [List.filter_cons_of_pos (by simpa using hnew), List.filter_congr hlater,
        List.append_assoc, List.singleton_append]

/-- Of entries with different keys, the first value of a key is the last one. -/
theorem lastValueAt?_entries (h : ledger.keys.Nodup) (key : String) :
    lastValueAt? key ledger.entries = ledger.get? key := by
  obtain ⟨list⟩ := ledger
  unfold keys get? at *
  induction list with
  | nil => rfl
  | cons entry rest ih =>
    obtain ⟨hentry, hrest⟩ := List.nodup_cons.mp h
    rw [lastValueAt?_cons, valueAt?_cons, ih hrest]
    split
    · next heq =>
      have hnone : valueAt? key rest = none := by
        rw [← Option.not_isSome_iff_eq_none, isSome_valueAt?_iff, heq]
        exact hentry
      rw [hnone, Option.none_or]
    · exact Option.or_none

/-- Writing what a ledger holds continues the one into which it is written. -/
theorem continues_putAll (first : Ledger α) (h : second.keys.Nodup) :
    Continues first second (first.putAll second.entries) where
  written := rfl
  keys_eq := keys_putAll first h
  get?_eq key := by rw [get?_putAll, lastValueAt?_entries h]

/-- Entries with different keys are written into the empty ledger as they are. -/
theorem putAll_empty (hlist : (list.map (·.1)).Nodup) : empty.putAll list = ⟨list⟩ := by
  have hempty : (empty : Ledger α).keys.Nodup := List.nodup_nil
  refine ext_of_keys ?_ (nodup_keys_putAll hempty list) fun key => ?_
  · rw [keys_putAll _ hlist]
    exact List.filter_eq_self.mpr fun key _ => by simp [keys, empty]
  · have hlast : lastValueAt? key list = get? ⟨list⟩ key := lastValueAt?_entries hlist key
    rw [get?_putAll, get?_empty, Option.or_none, hlast]

/-- It makes no difference whether a value is written before or after what a ledger holds has been
written into another. -/
theorem putAll_entries_put (first : Ledger α) (hfirst : first.keys.Nodup)
    (hsecond : second.keys.Nodup) (key : String) (value : α) :
    first.putAll (second.put key value).entries = (first.putAll second.entries).put key value := by
  have hjoined := continues_putAll first hsecond
  have hput := continues_putAll first (nodup_keys_put hsecond key value)
  have hkeys : (first.putAll (second.put key value).entries).keys =
      ((first.putAll second.entries).put key value).keys := by
    rw [hput.keys_eq, keys_put, keys_put, hjoined.keys_eq]
    by_cases h1 : key ∈ first.keys <;> by_cases h2 : key ∈ second.keys <;>
      simp [h1, h2, List.filter_append]
  refine ext_of_keys hkeys (nodup_keys_putAll hfirst _) fun other => ?_
  · rw [hput.get?_eq, get?_put, get?_put, hjoined.get?_eq]
    split
    · rfl
    · rfl

end Ledger

end Stubgen
