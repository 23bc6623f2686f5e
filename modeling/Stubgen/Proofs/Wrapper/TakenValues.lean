import Mathlib.Data.List.NodupEquivFin
import Stubgen.Proofs.Wrapper.BuiltTypes

/-!
# The variables that a format fills

The items of a format are its values and the marks that move a value into a variable of its own.
Every item takes the next variable, and so a scan that asks for variables by their position never
asks for one behind the last. The variables that hold values in the end stand in the order of their
names. Without marks every value is in the variable at its own place, with the type that the same
format tells when it puts values together.
-/

namespace Stubgen.Wrapper

open Text (Brackets)

/-- What takes a variable. -/
inductive Item where
  /-- A value of a type. -/
  | value (type : String)
  /-- The value before it is moved into the next variable. -/
  | mark
  deriving DecidableEq

/-- The item that a piece of a format is, if it takes a variable. -/
def Piece.item? : Piece → Option Item
  | .group inside closer =>
    some (.value (groupType closer ++ "(" ++ ", ".intercalate (builtTypes inside) ++ ")"))
  | .single c =>
    if c = '&' || c = '|' then none
    else if c = '!' || c = '#' then some .mark
    else some (.value ((letterType c).getD Tag.unspecified))

/-- The items of a format. -/
def items (format : List Char) : List Item :=
  (pieces format).filterMap Piece.item?

/-- The type of a value. -/
def Item.type? : Item → Option String
  | .value type => some type
  | .mark => none

/-- The tag of a type. A type that is not known is not spelled out. -/
def explicitTag (type : String) : String :=
  if type = Tag.unspecified then type else "!" ++ type

/-- The value in another variable, with a note of the variable that it was in. -/
def movedTo (name : String) (value : TypedName) : TypedName :=
  ⟨name, value.tag ++ " (C type: " ++ value.name ++ ")"⟩

/-- Puts an item into a variable. Of the values so far, the latest is the first. -/
def takeItem (done : List TypedName) : String × Item → List TypedName
  | (name, .value type) => ⟨name, explicitTag type⟩ :: done
  | (name, .mark) =>
    match done with
    | [] => []
    | last :: earlier => movedTo name last :: earlier

/-- Values in the order of the format, and the position of the next variable. -/
structure Taking where
  values : List TypedName
  position : Nat

/-- Puts a piece into the variable at the position. It fails if there is none. -/
def addValue (names : List String) (taking : Taking) : Piece → Option Taking
  | .group inside closer =>
    names[taking.position]?.map fun name =>
      let type := groupType closer ++ "(" ++ ", ".intercalate (builtTypes inside) ++ ")"
      ⟨taking.values ++ [⟨name, "!" ++ type⟩], taking.position + 1⟩
  | .single c =>
    if c = '&' || c = '|' then some taking
    else if c = '!' || c = '#' then
      match taking.values.getLast? with
      | none => some { taking with position := taking.position + 1 }
      | some last =>
        names[taking.position]?.map fun name =>
          ⟨taking.values.dropLast ++ [movedTo name last], taking.position + 1⟩
    else
      names[taking.position]?.map fun name =>
        ⟨taking.values ++ [⟨name, letterTag c⟩], taking.position + 1⟩

/-- The values of a format, scanned character by character until there is no variable left. -/
def scanValues (names : List String) (format : List Char) : Option (List TypedName) :=
  (Scan.run (fun taking => names.length ≤ taking.position) (addValue names) ⟨⟨[], 0⟩, 0, []⟩
    format).map Taking.values

variable {names : List String} {format : List Char} {done : List TypedName}

/-! ## Items -/

/-- No letter stands for the type that is not known. -/
theorem letterType_ne_unspecified (c : Char) : letterType c ≠ some Tag.unspecified := by
  unfold letterType
  split <;> decide

/-- The tag of a letter is that of its type. -/
theorem letterTag_eq (c : Char) :
    letterTag c = explicitTag ((letterType c).getD Tag.unspecified) := by
  unfold letterTag
  cases hletter : letterType c with
  | none => rfl
  | some type =>
    have hknown : type ≠ Tag.unspecified := fun heq => letterType_ne_unspecified c (heq ▸ hletter)
    exact (if_neg hknown).symm

/-- The type of a group is known. -/
theorem explicitTag_group (kind inside : String) :
    explicitTag (kind ++ "(" ++ inside ++ ")") = "!" ++ (kind ++ "(" ++ inside ++ ")") := by
  refine if_neg fun heq => ?_
  have hmem : '(' ∈ (kind ++ "(" ++ inside ++ ")").toList := by simp
  rw [heq] at hmem
  exact absurd hmem (by decide)

/-- The types that a format puts together are those of its items. -/
theorem builtTypes_eq_items (format : List Char) :
    builtTypes format = (items format).filterMap Item.type? := by
  rw [builtTypes_eq, items, List.filterMap_filterMap]
  refine List.filterMap_congr fun piece _ => ?_
  cases piece with
  | group inside closer => rfl
  | single c =>
    unfold Piece.type? Piece.item? isModifier
    by_cases hskipped : c = '&' ∨ c = '|'
    · rcases hskipped with rfl | rfl <;> rfl
    by_cases hmark : c = '!' ∨ c = '#'
    · rcases hmark with rfl | rfl <;> rfl
    · rw [not_or] at hskipped hmark
      simp [hskipped, hmark, Item.type?]

section Equations

variable {c : Char} {cs : List Char} {group : Group}

/-- A group is an item. -/
theorem items_cons_of_opening (hopens : isOpening c = true) :
    items (c :: cs) =
      match Group.read? 0 cs with
      | none => []
      | some group => .value group.type :: items group.rest := by
  rw [items, pieces_cons_of_opening hopens]
  cases Group.read? 0 cs with
  | none => rfl
  | some group => rfl

/-- Brackets that close nothing, and the marks that have no bearing on variables, are no items. -/
theorem items_cons_of_skipped (hopens : ¬isOpening c = true)
    (hskipped : (isClosing c || c = '&' || c = '|') = true) : items (c :: cs) = items cs := by
  by_cases hcloses : isClosing c = true
  · rw [items, pieces_cons_of_closing hopens hcloses, items]
  · have hmark : (c = '&' || c = '|') = true := by simpa [hcloses] using hskipped
    have hnone : (Piece.single c).item? = none := if_pos hmark
    rw [items, pieces_cons_of_plain hopens hcloses, List.filterMap_cons_none hnone, items]

/-- A mark that moves a value is an item, and every other character is a value. -/
theorem items_cons_of_kept (hopens : ¬isOpening c = true)
    (hkept : ¬(isClosing c || c = '&' || c = '|') = true) :
    items (c :: cs) =
      (if c = '!' || c = '#' then .mark else .value ((letterType c).getD Tag.unspecified)) ::
        items cs := by
  obtain ⟨hcloses, hmark⟩ : ¬isClosing c = true ∧ ¬(c = '&' || c = '|') = true := by
    simpa [and_assoc] using hkept
  have hsome : (Piece.single c).item? = some
      (if c = '!' || c = '#' then .mark else .value ((letterType c).getD Tag.unspecified)) := by
    rw [Piece.item?, if_neg hmark]
    split <;> rfl
  rw [items, pieces_cons_of_plain hopens hcloses, List.filterMap_cons_some hsome, items]

end Equations

/-- A format fills its variables item by item. -/
theorem takenFrom_eq (done : List TypedName) (names : List String) (format : List Char) :
    takenFrom done names format = ((names.zip (items format)).foldl takeItem done).reverse := by
  fun_induction takenFrom done names format with
  | case1 done format => rfl
  | case2 done names hnames => rw [show items [] = [] from rfl, List.zip_nil_right, List.foldl_nil]
  | case3 done name names c cs hopens hread =>
    rw [items_cons_of_opening hopens, hread, List.zip_nil_right, List.foldl_nil]
  | case4 done name names c cs hopens group hread ih =>
    rw [ih, items_cons_of_opening hopens, hread, Group.type, ← explicitTag_group]
    rfl
  | case5 done name names c cs hopens hskipped ih => rw [ih, items_cons_of_skipped hopens hskipped]
  | case6 name names c cs hopens hskipped hmark ih =>
    rw [ih, items_cons_of_kept hopens hskipped, if_pos hmark]
    rfl
  | case7 name names c cs hopens hskipped hmark last earlier ih =>
    rw [ih, items_cons_of_kept hopens hskipped, if_pos hmark]
    rfl
  | case8 done name names c cs hopens hskipped hmark ih =>
    rw [ih, items_cons_of_kept hopens hskipped, if_neg hmark, letterTag_eq]
    rfl

/-- What a format takes is what its items take. -/
theorem takenTypes_eq (names : List String) (format : List Char) :
    takenTypes names format = ((names.zip (items format)).foldl takeItem []).reverse :=
  takenFrom_eq [] names format

/-! ## Positions -/

/-- If there is a variable at the position, then a piece is put there, unless it takes none. -/
theorem addValue_eq {name : String} {position : Nat} (hname : names[position]? = some name)
    (done : List TypedName) (piece : Piece) :
    addValue names ⟨done.reverse, position⟩ piece =
      some (match piece.item? with
        | none => ⟨done.reverse, position⟩
        | some item => ⟨(takeItem done (name, item)).reverse, position + 1⟩) := by
  cases piece with
  | group inside closer =>
    rw [addValue, hname, Piece.item?]
    simp only [Option.map_some, takeItem, explicitTag_group, List.reverse_cons]
  | single c =>
    rw [addValue, Piece.item?]
    split
    · rfl
    split
    · cases done with
      | nil => rfl
      | cons last earlier => simp [hname, takeItem]
    · simp [hname, takeItem, letterTag_eq]

/-- Putting pieces into the variables from a position on. -/
theorem addAll_addValue (names : List String) (done : List TypedName) (position : Nat)
    (pieces : List Piece) :
    (addAll (fun taking => names.length ≤ taking.position) (addValue names)
      ⟨done.reverse, position⟩ pieces).map Taking.values =
      some (List.reverse
        (((names.drop position).zip (pieces.filterMap Piece.item?)).foldl takeItem done)) := by
  induction pieces generalizing done position with
  | nil =>
    rw [addAll, List.filterMap_nil, List.zip_nil_right]
    rfl
  | cons piece pieces ih =>
    rw [addAll]
    split
    · next hfull =>
      rw [List.drop_eq_nil_of_le (decide_eq_true_iff.mp hfull)]
      rfl
    · next hfull =>
      have hlt : position < names.length := Nat.lt_of_not_le fun hle => hfull (decide_eq_true hle)
      have hname : names[position]? = some names[position] := List.getElem?_eq_getElem hlt
      rw [addValue_eq hname, Option.bind_some]
      cases hitem : piece.item? with
      | none => rw [List.filterMap_cons_none hitem, ih]
      | some item =>
        rw [List.filterMap_cons_some hitem, List.drop_eq_getElem_cons hlt, List.zip_cons_cons,
          List.foldl_cons, ih]

/-- The scan asks for no variable that is not there, and it puts every value where it belongs. -/
theorem scanValues_eq (names : List String) (format : List Char) :
    scanValues names format = some (takenTypes names format) := by
  rw [scanValues, Scan.run_eq, takenTypes_eq]
  exact addAll_addValue names [] 0 (pieces format)

/-- What a format takes is what the scan finds. -/
theorem takenTypes_of_scanValues {types : List TypedName}
    (h : scanValues names format = some types) : takenTypes names format = types :=
  Option.some.inj ((scanValues_eq names format).symm.trans h)

/-- The variables with values are some of those that there were, in their order. -/
theorem sublist_foldl_takeItem (done : List TypedName) (names : List String) (items : List Item) :
    (((names.zip items).foldl takeItem done).reverse.map TypedName.name).Sublist
      (done.reverse.map TypedName.name ++ names) := by
  induction names generalizing done items with
  | nil => rw [List.append_nil]; exact List.Sublist.refl _
  | cons name names ih =>
    cases items with
    | nil => exact List.sublist_append_left _ _
    | cons item items =>
      rw [List.zip_cons_cons, List.foldl_cons]
      refine (ih (takeItem done (name, item)) items).trans ?_
      cases item with
      | value type => simp [takeItem]
      | mark =>
        cases done with
        | nil => exact List.sublist_cons_self name names
        | cons last earlier => simp [takeItem, movedTo]

/-- A part of the variables in their order has increasing positions. -/
theorem exists_strictMono_of_sublist {values names : List String} (h : values.Sublist names) :
    ∃ position : Nat → Nat, StrictMono position ∧
      ∀ (i : Nat) value, values[i]? = some value → names[position i]? = some value := by
  obtain ⟨position, hposition⟩ := List.sublist_iff_exists_orderEmbedding_getElem?_eq.mp h
  exact ⟨position, position.strictMono, fun i value hvalue => (hposition i).symm.trans hvalue⟩

/-! ## Formats without marks -/

/-- Values that are not moved are in the variables at their places. -/
theorem foldl_takeItem_values (done : List TypedName) (names types : List String) :
    ((names.zip (types.map Item.value)).foldl takeItem done).reverse =
      done.reverse ++ List.zipWith (fun name type => ⟨name, explicitTag type⟩) names types := by
  induction names generalizing done types with
  | nil => rw [List.zip_nil_left, List.zipWith_nil_left, List.append_nil, List.foldl_nil]
  | cons name names ih =>
    cases types with
    | nil =>
      rw [List.map_nil, List.zip_nil_right, List.zipWith_nil_right, List.append_nil, List.foldl_nil]
    | cons type types =>
      rw [List.map_cons, List.zip_cons_cons, List.foldl_cons, ih]
      simp [takeItem]

/-- The items of a format without marks outside of its brackets are its types. -/
theorem items_eq_of_unmarked (hbang : ¬formatBrackets.HoldsOutside 0 format '!')
    (hsharp : ¬formatBrackets.HoldsOutside 0 format '#') :
    items format = (builtTypes format).map Item.value := by
  rw [builtTypes_eq_items, List.map_filterMap]
  refine (List.filterMap_some).symm.trans (List.filterMap_congr fun item hitem => ?_)
  cases item with
  | value type => rfl
  | mark =>
    obtain ⟨piece, hpiece, hmark⟩ := List.mem_filterMap.mp hitem
    cases piece with
    | group inside closer => exact nomatch hmark
    | single c =>
      have houtside := holdsOutside_of_single_mem hpiece
      rw [Piece.item?] at hmark
      split at hmark
      · exact nomatch hmark
      split at hmark
      · next hc =>
        rcases (by simpa using hc : c = '!' ∨ c = '#') with rfl | rfl
        · exact absurd houtside hbang
        · exact absurd houtside hsharp
      · exact nomatch hmark

/-- A format asks for no variable that is not there. The variables that hold values in the end stand
in the order of their names. If no mark stands outside of all brackets, then the values are those
that the format puts together, in the variables at their places. -/
theorem values_taken_in_order (names : List String) (format : List Char) :
    scanValues names format = some (takenTypes names format) ∧
      (∃ position : Nat → Nat, StrictMono position ∧
        ∀ (i : Nat) value, (takenTypes names format)[i]? = some value →
          names[position i]? = some value.name) ∧
      (¬formatBrackets.HoldsOutside 0 format '!' → ¬formatBrackets.HoldsOutside 0 format '#' →
        takenTypes names format =
          List.zipWith (fun name type => ⟨name, explicitTag type⟩) names (builtTypes format)) := by
  refine ⟨scanValues_eq names format, ?_, fun hbang hsharp => ?_⟩
  · have hsublist := sublist_foldl_takeItem [] names (items format)
    rw [← takenTypes_eq] at hsublist
    obtain ⟨position, hmono, hposition⟩ := exists_strictMono_of_sublist hsublist
    refine ⟨position, hmono, fun i value hvalue => hposition i value.name ?_⟩
    rw [List.getElem?_map, hvalue, Option.map_some]
  · rw [takenTypes_eq, items_eq_of_unmarked hbang hsharp]
    exact foldl_takeItem_values [] names (builtTypes format)

end Stubgen.Wrapper
