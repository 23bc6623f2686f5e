import Stubgen.Tag

/-!
# Format strings

A wrapper takes its arguments apart, and puts its result together, by a format string with
one letter per value. Values between brackets form a group. The two directions share the
letters and the groups; they differ in the marks that modify a letter.
-/

namespace Stubgen.Wrapper

/-- The type that a letter of a format stands for. -/
def letterType : Char → Option String
  | 's' | 'z' => some "string"
  | 'u' => some "unicode"
  | 'i' | 'b' | 'h' | 'l' => some "integer"
  | 'c' => some "char"
  | 'd' => some "float"
  | 'D' => some "complex"
  | 'O' | 'S' | 'U' | 'N' => some "object"
  | _ => none

/-- A bracket that begins a group. -/
def isOpening (c : Char) : Bool :=
  c = '(' || c = '[' || c = '\x7b'

/-- A bracket that ends a group. -/
def isClosing (c : Char) : Bool :=
  c = ')' || c = ']' || c = '\x7d'

/-- The type of a group, told by the bracket that ends it. -/
def groupType (closer : Char) : String :=
  if closer = ')' then "tuple" else if closer = ']' then "list" else "dict"

/-- A group whose opening bracket has been read. -/
structure Group where
  /-- What stands between the brackets. -/
  inside : List Char
  /-- The bracket that ends the group. -/
  closer : Char
  /-- What follows the group. -/
  rest : List Char

/-- The group that ends at the bracket which closes more brackets than were opened, when
`depth` brackets are open inside it. Brackets of all kinds count alike. -/
def Group.read? (depth : Nat) : List Char → Option Group
  | [] => none
  | c :: cs =>
    if isOpening c then
      (Group.read? (depth + 1) cs).map fun group => { group with inside := c :: group.inside }
    else if isClosing c then
      match depth with
      | 0 => some ⟨[], c, cs⟩
      | depth + 1 =>
        (Group.read? depth cs).map fun group => { group with inside := c :: group.inside }
    else (Group.read? depth cs).map fun group => { group with inside := c :: group.inside }

/-- The parts of a group make up the text that it was read from. -/
theorem Group.append_of_read? {depth : Nat} {text : List Char} {group : Group}
    (h : Group.read? depth text = some group) :
    group.inside ++ group.closer :: group.rest = text := by
  induction text generalizing depth group with
  | nil => simp [Group.read?] at h
  | cons c cs ih =>
    unfold Group.read? at h
    split at h
    · obtain ⟨inner, hinner, rfl⟩ := Option.map_eq_some_iff.mp h
      simpa using ih hinner
    · split at h
      · split at h
        · obtain rfl := Option.some.inj h
          rfl
        · obtain ⟨inner, hinner, rfl⟩ := Option.map_eq_some_iff.mp h
          simpa using ih hinner
      · obtain ⟨inner, hinner, rfl⟩ := Option.map_eq_some_iff.mp h
        simpa using ih hinner

private theorem Group.length_of_read? {depth : Nat} {text : List Char} {group : Group}
    (h : Group.read? depth text = some group) :
    group.inside.length + group.rest.length < text.length := by
  rw [← Group.append_of_read? h]
  simp

/-- The marks that change the value before them. -/
def isModifier (c : Char) : Bool :=
  c = '#' || c = '&' || c = '!' || c = '|'

/-- The types of the values that a format puts together. A group that is not closed adds
nothing, and so does a bracket that closes no group. -/
def builtTypes : List Char → List String
  | [] => []
  | c :: cs =>
    if isOpening c then
      match _hread : Group.read? 0 cs with
      | none => []
      | some group =>
        (groupType group.closer ++ "(" ++ ", ".intercalate (builtTypes group.inside) ++ ")") ::
          builtTypes group.rest
    else if isClosing c || isModifier c then builtTypes cs
    else (letterType c).getD Tag.unspecified :: builtTypes cs
termination_by text => text.length
decreasing_by
  all_goals simp only [List.length_cons]
  · have := Group.length_of_read? _hread
    omega
  · have := Group.length_of_read? _hread
    omega
  · omega
  · omega

/-- The type of a group in words. -/
def Group.type (group : Group) : String :=
  groupType group.closer ++ "(" ++ ", ".intercalate (builtTypes group.inside) ++ ")"

/-- The tag of the value that a letter takes from the arguments. -/
def letterTag (c : Char) : String :=
  match letterType c with
  | some type => "!" ++ type
  | none => Tag.unspecified

/-- Names the values that a format takes from the arguments, after those of `done`, the
latest first. Each value goes into the next of the variables `names`. A `!` or a `#` moves
the value before it into the next variable and notes the variable that it was in. -/
def takenFrom (done : List TypedName) : List String → List Char → List TypedName
  | [], _ => done.reverse
  | _, [] => done.reverse
  | name :: names, c :: cs =>
    if isOpening c then
      match _hread : Group.read? 0 cs with
      | none => done.reverse
      | some group => takenFrom (⟨name, "!" ++ group.type⟩ :: done) names group.rest
    else if isClosing c || c = '&' || c = '|' then takenFrom done (name :: names) cs
    else if c = '!' || c = '#' then
      match done with
      | [] => takenFrom [] names cs
      | last :: earlier =>
        takenFrom (⟨name, last.tag ++ " (C type: " ++ last.name ++ ")"⟩ :: earlier) names cs
    else takenFrom (⟨name, letterTag c⟩ :: done) names cs
termination_by _ text => text.length
decreasing_by
  all_goals simp only [List.length_cons]
  · have := Group.length_of_read? _hread
    omega
  all_goals omega

/-- The values that a format takes from the arguments, under the names of the variables
that they go into. -/
def takenTypes (names : List String) (format : List Char) : List TypedName :=
  takenFrom [] names format

end Stubgen.Wrapper
