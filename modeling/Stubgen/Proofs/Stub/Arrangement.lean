import Mathlib.Data.List.TakeWhile
import Stubgen.Proofs.Stub.Constructors

/-!
# The order of a stub

A stub shows the classes, the functions and the constants of a namespace. This file proves that the
text of a stub has one chunk for each of them, in the order of the bytes of their keys. A class, a
function and a constant may have the same key. They are sorted by their keys alone, and as sorting
keeps the order of what has the same key, the class comes first and the constant last.
-/

namespace Stubgen.Stub

/-! ## Chunks -/

/-- The text begins, behind blanks, with the word of a class or of a callable. -/
def BeginsBlock (text : String) : Prop :=
  ∃ blanks rest, text.toList = blanks ++ rest ∧ (∀ c ∈ blanks, Text.isBlank c = true) ∧
    ("class".toList <+: rest ∨ "def".toList <+: rest)

/-- A block is told by what follows the blanks at its beginning. -/
theorem isBlock_iff {text : String} : isBlock text = true ↔ BeginsBlock text := by
  simp only [isBlock, Bool.or_eq_true, List.isPrefixOf_iff_prefix]
  constructor
  · intro h
    exact ⟨text.toList.takeWhile Text.isBlank, Text.trimStart text.toList,
      List.takeWhile_append_dropWhile.symm, fun c hc => List.mem_takeWhile_imp hc, h⟩
  · rintro ⟨blanks, rest, htext, hblanks, hrest⟩
    have hfirst : ∀ c ∈ rest.head?, Text.isBlank c = false := by
      rcases hrest with ⟨tail, rfl⟩ | ⟨tail, rfl⟩
      · rintro c ⟨⟩
        decide
      · rintro c ⟨⟩
        decide
    rwa [Text.trimStart, htext, Text.dropWhile_append_exact hblanks hfirst]

instance (text : String) : Decidable (BeginsBlock text) :=
  decidable_of_iff _ isBlock_iff

/-- A chunk is a text on lines of its own, with an empty line before a block. -/
theorem chunk_eq (text : String) :
    chunk text = (if BeginsBlock text then "\n" else "") ++ text ++ "\n" := by
  simp only [chunk, isBlock_iff]

/-- There is no chunk without text. -/
theorem chunk_ne_empty (text : String) : chunk text ≠ "" := by
  simp [chunk, String.append_eq_empty_iff]

/-! ## Items -/

/-- What a stub shows. -/
inductive Item where
  | ofClass (c : Class)
  | ofFunction (function : Callable)
  | ofConstant (name line : String)

namespace Item

/-- The key of the item in its table. -/
def key : Item → String
  | ofClass c => c.nativeName
  | ofFunction function => function.name
  | ofConstant name _ => name

/-- The place of the item among items with the same key. -/
def rank : Item → Nat
  | ofClass _ => 0
  | ofFunction _ => 1
  | ofConstant _ _ => 2

/-- The text of the item in the stub of a namespace. -/
def text (ns : Namespace) : Item → String
  | ofClass c => renderClass ns c
  | ofFunction function => renderCallable ns.shownName function
  | ofConstant _ line => line

/-- The namespace holds the item. -/
def IsIn (ns : Namespace) : Item → Prop
  | ofClass c => c ∈ ns.classes.values
  | ofFunction function => function ∈ ns.functions.values
  | ofConstant name line => (name, line) ∈ ns.constants.entries

/-- The item comes before another one: its key has smaller bytes, or the keys are the same and it is
the class, or the function before a constant. -/
def Precedes (a b : Item) : Prop :=
  Text.utf8 a.key < Text.utf8 b.key ∨ a.key = b.key ∧ a.rank < b.rank

end Item

/-- The items are those of a namespace in their order. -/
structure Arranges (ns : Namespace) (items : List Item) : Prop where
  complete : ∀ item, item ∈ items ↔ item.IsIn ns
  nodup : items.Nodup
  /-- There is one item for each key of each table. -/
  length_eq : items.length = ns.classes.size + ns.functions.size + ns.constants.size
  ordered : items.Pairwise Item.Precedes

/-! ## The items of a namespace -/

/-- The items of a namespace, one table after the other. -/
def items (ns : Namespace) : List Item :=
  ns.classes.entries.map (fun entry => .ofClass entry.2) ++
    ns.functions.entries.map (fun entry => .ofFunction entry.2) ++
    ns.constants.entries.map fun entry => .ofConstant entry.1 entry.2

variable {ns : Namespace}

/-- The namespace holds the items of its tables. -/
theorem mem_items_iff {item : Item} : item ∈ items ns ↔ item.IsIn ns := by
  cases item <;> simp [items, Item.IsIn, Table.values]

/-- The key of a class is its native name. -/
theorem key_ofClass (h : ns.Integrity) {entry : String × Class}
    (hentry : entry ∈ ns.classes.entries) : (Item.ofClass entry.2).key = entry.1 :=
  h.class_named entry.1 entry.2 (Table.mem_entries_iff.mp hentry)

/-- The key of a function is its name. -/
theorem key_ofFunction (h : ns.Integrity) {entry : String × Callable}
    (hentry : entry ∈ ns.functions.entries) : (Item.ofFunction entry.2).key = entry.1 :=
  (h.function_named entry.1 entry.2 (Table.mem_entries_iff.mp hentry)).1

/-- The items under their keys are the entries of the stub. -/
theorem entries_eq_map_items (h : ns.Integrity) :
    entries ns = (items ns).map fun item => (item.key, item.text ns) := by
  simp only [entries, items, List.map_append, List.map_map]
  refine congrArg₂ (· ++ ·) (congrArg₂ (· ++ ·) ?classes ?functions) (List.map_id _).symm
  case classes =>
    exact List.map_congr_left fun entry hentry => Prod.ext (key_ofClass h hentry).symm rfl
  case functions =>
    exact List.map_congr_left fun entry hentry => Prod.ext (key_ofFunction h hentry).symm rfl

/-- No two items of a table have the same key. -/
theorem pairwise_ofTable {α : Type} (table : Table α) {item : String × α → Item}
    (hkey : ∀ entry ∈ table.entries, (item entry).key = entry.1) :
    (table.entries.map item).Pairwise fun a b => a.key = b.key → a.rank < b.rank := by
  refine List.pairwise_map.mpr (table.ascending.imp_of_mem fun {a b} ha hb hlt hsame => ?_)
  rw [hkey a ha, hkey b hb] at hsame
  exact absurd hlt (hsame ▸ String.lt_irrefl a.1)

/-- Of items with the same key, the one of an earlier table comes first. -/
theorem pairwise_items (h : ns.Integrity) :
    (items ns).Pairwise fun a b => a.key = b.key → a.rank < b.rank := by
  refine List.pairwise_append.mpr ⟨List.pairwise_append.mpr ⟨?_, ?_, ?_⟩, ?_, ?_⟩
  · exact pairwise_ofTable ns.classes fun entry => key_ofClass h
  · exact pairwise_ofTable ns.functions fun entry => key_ofFunction h
  · intro a ha b hb _
    obtain ⟨_, _, rfl⟩ := List.mem_map.mp ha
    obtain ⟨_, _, rfl⟩ := List.mem_map.mp hb
    exact Nat.zero_lt_one
  · exact pairwise_ofTable ns.constants fun entry _ => rfl
  · intro a ha b hb _
    obtain ⟨_, _, rfl⟩ := List.mem_map.mp hb
    rcases List.mem_append.mp ha with ha | ha
    · obtain ⟨_, _, rfl⟩ := List.mem_map.mp ha
      exact Nat.zero_lt_two
    · obtain ⟨_, _, rfl⟩ := List.mem_map.mp ha
      exact Nat.one_lt_two

/-- The items of a namespace in the order of the stub. -/
def arranged (ns : Namespace) : List Item :=
  (items ns).mergeSort fun a b => a.key ≤ b.key

/-- The items are arranged by their keys, and by their tables if their keys are the same. -/
theorem arranges_arranged (h : ns.Integrity) : Arranges ns (arranged ns) := by
  have hordered : (arranged ns).Pairwise Item.Precedes :=
    (pairwise_mergeSort_of_same_key Item.key (pairwise_items h)).imp fun hab =>
      hab.imp_left Text.utf8_lt_utf8_iff.mpr
  refine ⟨fun item => ?_, ?_, ?_, hordered⟩
  · rw [arranged, List.mem_mergeSort, mem_items_iff]
  · refine hordered.imp fun hab heq => ?_
    subst heq
    rcases hab with hlt | ⟨-, hlt⟩
    · exact List.lt_irrefl _ hlt
    · exact Nat.lt_irrefl _ hlt
  · simp [arranged, items, Table.size, Nat.add_assoc]

/-- The text of a stub is made up of the chunks of its items. -/
theorem render_eq_join (h : ns.Integrity) :
    render ns = String.join ((arranged ns).map fun item => chunk (item.text ns)) := by
  have hsorted : (arranged ns).map (fun item => (item.key, item.text ns)) =
      sortEntries (entries ns) := by
    rw [sortEntries, entries_eq_map_items h]
    exact List.map_mergeSort fun _ _ _ _ => rfl
  rw [render, ← hsorted, List.map_map]
  rfl

/-- Nothing is written exactly for a namespace that has nothing to write. -/
theorem render_eq_empty_iff (ns : Namespace) : render ns = "" ↔ ns.isEmpty = true := by
  have hentries : ns.isEmpty = true ↔ sortEntries (entries ns) = [] := by
    rw [← List.length_eq_zero_iff, sortEntries, List.length_mergeSort, List.length_eq_zero_iff]
    simp [Namespace.isEmpty, Table.isEmpty, entries, and_assoc]
  rw [hentries, render]
  cases sortEntries (entries ns) with
  | nil => simp
  | cons entry rest => simp [String.append_eq_empty_iff, chunk_ne_empty]

/-- The text of the stub of a namespace that operations have built is made up of one chunk for each
class, function and constant that the namespace holds, in ascending order of the bytes of their
keys; a class comes before a function, and a function before a constant, with the same key. The text
is empty exactly if the namespace has nothing to write. -/
theorem render_arranges (operations : List Namespace.Operation) :
    let ns := Namespace.ofOperations operations
    (∃ items, Arranges ns items ∧ render ns = String.join (items.map fun item =>
      (if BeginsBlock (item.text ns) then "\n" else "") ++ item.text ns ++ "\n")) ∧
    (render ns = "" ↔ ns.isEmpty = true) := by
  intro ns
  have h : ns.Integrity := Namespace.integrity_ofOperations operations
  refine ⟨⟨arranged ns, arranges_arranged h, ?_⟩, render_eq_empty_iff ns⟩
  rw [render_eq_join h]
  simp only [chunk_eq]

end Stubgen.Stub
