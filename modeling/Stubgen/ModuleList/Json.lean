/-!
# JSON texts

A JSON text is split into tokens, and the tokens are read as one value. Only what a module
list needs is kept of a value: numbers are checked but not kept, and a string whose escapes
do not make up characters is kept as such, because it may stand where nobody looks at it.
-/

namespace Stubgen.ModuleList

/-- A JSON value. -/
inductive JsonValue where
  | null
  | bool (value : Bool)
  | number
  /-- A string, if its escapes make up characters. -/
  | str (text? : Option String)
  | array (items : List JsonValue)
  | object (fields : List (Option String × JsonValue))

/-- A token of a JSON text. -/
inductive JsonToken where
  | openArray
  | closeArray
  | openObject
  | closeObject
  | comma
  | colon
  | str (text? : Option String)
  /-- A value that is no string, no array and no object. -/
  | literal (value : JsonValue)

/-- The value of a hexadecimal digit. -/
def hexValue? (c : Char) : Option Nat :=
  if '0' ≤ c ∧ c ≤ '9' then some (c.toNat - '0'.toNat)
  else if 'a' ≤ c ∧ c ≤ 'f' then some (c.toNat - 'a'.toNat + 10)
  else if 'A' ≤ c ∧ c ≤ 'F' then some (c.toNat - 'A'.toNat + 10)
  else none

/-- The value of four hexadecimal digits. -/
def hexUnit? (a b c d : Char) : Option Nat := do
  return (((← hexValue? a) * 16 + (← hexValue? b)) * 16 + (← hexValue? c)) * 16 + (← hexValue? d)

/-- The code point of a character that is escaped by one letter. -/
def escapeValue? : Char → Option Nat
  | '"' => some 0x22
  | '\\' => some 0x5c
  | '/' => some 0x2f
  | 'b' => some 0x08
  | 'f' => some 0x0c
  | 'n' => some 0x0a
  | 'r' => some 0x0d
  | 't' => some 0x09
  | _ => none

/-- The rest of a string after its opening quote: its code points and escaped units of
UTF-16, and what follows the closing quote. -/
def stringUnits? : List Char → Option (List Nat × List Char)
  | [] => none
  | '\\' :: 'u' :: a :: b :: c :: d :: rest =>
    match hexUnit? a b c d, stringUnits? rest with
    | some unit, some (units, after) => some (unit :: units, after)
    | _, _ => none
  | '\\' :: c :: rest =>
    match escapeValue? c, stringUnits? rest with
    | some unit, some (units, after) => some (unit :: units, after)
    | _, _ => none
  | c :: rest =>
    if c = '"' then some ([], rest)
    else if c.toNat < 0x20 ∨ c = '\\' then none
    else
      match stringUnits? rest with
      | some (units, after) => some (c.toNat :: units, after)
      | none => none

/-- What follows a string is shorter than what follows its opening quote. -/
theorem length_of_stringUnits? {text : List Char} {units : List Nat} {after : List Char}
    (h : stringUnits? text = some (units, after)) : after.length < text.length := by
  fun_induction stringUnits? text generalizing units after with
  | case1 => simp at h
  | case2 a b c d rest unit units' after' hrest hunit ih =>
    obtain ⟨rfl, rfl⟩ := by simpa using h
    have := ih hrest
    simp only [List.length_cons]
    omega
  | case3 => simp at h
  | case4 c rest _ unit units' after' hrest hunit ih =>
    obtain ⟨rfl, rfl⟩ := by simpa using h
    have := ih hrest
    simp only [List.length_cons]
    omega
  | case5 => simp at h
  | case6 =>
    obtain ⟨rfl, rfl⟩ := by simpa using h
    simp
  | case7 => simp at h
  | case8 c rest _ _ _ _ units' after' hrest ih =>
    obtain ⟨rfl, rfl⟩ := by simpa using h
    have := ih hrest
    simp only [List.length_cons]
    omega
  | case9 => simp at h

/-- The first unit of a pair that stands for one character. -/
def isLead (unit : Nat) : Bool :=
  0xd800 ≤ unit && unit < 0xdc00

/-- The second unit of a pair that stands for one character. -/
def isTrail (unit : Nat) : Bool :=
  0xdc00 ≤ unit && unit < 0xe000

/-- The characters that units stand for, if each belongs to a character. -/
def joinUnits? : List Nat → Option (List Char)
  | [] => some []
  | [unit] => if isLead unit || isTrail unit then none else some [Char.ofNat unit]
  | unit :: next :: rest =>
    if isLead unit then
      if isTrail next then
        (joinUnits? rest).map
          (Char.ofNat (0x10000 + (unit - 0xd800) * 0x400 + (next - 0xdc00)) :: ·)
      else none
    else if isTrail unit then none
    else (joinUnits? (next :: rest)).map (Char.ofNat unit :: ·)

/-- The characters that numbers are made of. -/
def isNumberChar (c : Char) : Bool :=
  c.isDigit || c = '-' || c = '+' || c = '.' || c = 'e' || c = 'E'

/-- An optional exponent and nothing else. -/
def isExponent : List Char → Bool
  | [] => true
  | c :: cs =>
    let digits :=
      match cs with
      | [] => []
      | d :: ds => if d = '+' ∨ d = '-' then ds else d :: ds
    (c = 'e' || c = 'E') && digits ≠ [] && digits.all Char.isDigit

/-- An optional fraction, an optional exponent and nothing else. -/
def isFraction : List Char → Bool
  | '.' :: cs =>
    cs.takeWhile Char.isDigit ≠ [] && isExponent (cs.dropWhile Char.isDigit)
  | cs => isExponent cs

/-- Whether a text is a number. No zero stands before another digit. -/
def isNumber (text : List Char) : Bool :=
  let unsigned :=
    match text with
    | '-' :: cs => cs
    | cs => cs
  match unsigned with
  | [] => false
  | c :: cs =>
    if c = '0' then isFraction cs
    else c.isDigit && isFraction (cs.dropWhile Char.isDigit)

/-- The word that a text begins with, as a value, and what follows it. -/
def word? (text : List Char) : Option (JsonToken × List Char) :=
  if "true".toList.isPrefixOf text then some (.literal (.bool true), text.drop 4)
  else if "false".toList.isPrefixOf text then some (.literal (.bool false), text.drop 5)
  else if "null".toList.isPrefixOf text then some (.literal .null, text.drop 4)
  else none

/-- The token that is a single character. -/
def mark? : Char → Option JsonToken
  | '[' => some .openArray
  | ']' => some .closeArray
  | '\x7b' => some .openObject
  | '\x7d' => some .closeObject
  | ',' => some .comma
  | ':' => some .colon
  | _ => none

/-- The token that a text begins with, and what follows it. -/
def token? (c : Char) (cs : List Char) : Option (JsonToken × List Char) :=
  match mark? c with
  | some mark => some (mark, cs)
  | none =>
    if c = '"' then
      match stringUnits? cs with
      | some (units, rest) => some (.str ((joinUnits? units).map String.ofList), rest)
      | none => none
    else if c = '-' ∨ c.isDigit then
      if isNumber (c :: cs.takeWhile isNumberChar) then
        some (.literal .number, cs.dropWhile isNumberChar)
      else none
    else word? (c :: cs)

private theorem length_of_word? {text : List Char} {token : JsonToken} {rest : List Char}
    (htext : text ≠ []) (h : word? text = some (token, rest)) : rest.length < text.length := by
  have := List.length_pos_iff.mpr htext
  unfold word? at h
  grind [List.length_drop]

/-- What follows a token is shorter than the text. -/
theorem length_of_token? {c : Char} {cs : List Char} {token : JsonToken} {rest : List Char}
    (h : token? c cs = some (token, rest)) : rest.length < (c :: cs).length := by
  rw [List.length_cons, Nat.lt_succ_iff]
  unfold token? at h
  split at h
  · simp_all
  · split at h
    · split at h
      · next hunits =>
        obtain ⟨rfl, rfl⟩ := by simpa using h
        exact Nat.le_of_lt (length_of_stringUnits? hunits)
      · simp at h
    · split at h
      · split at h
        · obtain ⟨rfl, rfl⟩ := by simpa using h
          exact (List.dropWhile_suffix _).length_le
        · simp at h
      · exact Nat.lt_succ_iff.mp (length_of_word? (by simp) h)

/-- Blank characters of JSON separate tokens. -/
def isJsonBlank (c : Char) : Bool :=
  c = ' ' || c = '\n' || c = '\t' || c = '\r'

/-- The tokens of a text. -/
def tokens? (text : List Char) : Option (List JsonToken) :=
  match text with
  | [] => some []
  | c :: cs =>
    if isJsonBlank c then tokens? cs
    else
      match _htoken : token? c cs with
      | none => none
      | some (token, rest) => (tokens? rest).map (token :: ·)
termination_by text.length
decreasing_by
  · simp
  · exact length_of_token? _htoken

/-- What is read from the beginning of some tokens, with the tokens that are left. -/
structure Prefixed (α : Type) (tokens : List JsonToken) where
  value : α
  rest : List JsonToken
  rest_lt : rest.length < tokens.length

mutual

/-- The value that tokens begin with. -/
def value? (tokens : List JsonToken) : Option (Prefixed JsonValue tokens) :=
  match tokens with
  | .str text? :: rest => some ⟨.str text?, rest, by simp⟩
  | .literal value :: rest => some ⟨value, rest, by simp⟩
  | .openArray :: .closeArray :: rest =>
    some ⟨.array [], rest, by simp only [List.length_cons]; omega⟩
  | .openArray :: rest =>
    (items? rest).map fun read =>
      ⟨.array read.value, read.rest, Nat.lt_succ_of_lt read.rest_lt⟩
  | .openObject :: .closeObject :: rest =>
    some ⟨.object [], rest, by simp only [List.length_cons]; omega⟩
  | .openObject :: rest =>
    (fields? rest).map fun read =>
      ⟨.object read.value, read.rest, Nat.lt_succ_of_lt read.rest_lt⟩
  | _ => none
termination_by (tokens.length, 0)

/-- The items of an array up to its closing bracket. -/
def items? (tokens : List JsonToken) : Option (Prefixed (List JsonValue) tokens) :=
  match value? tokens with
  | none => none
  | some ⟨value, .closeArray :: rest, h⟩ =>
    some ⟨[value], rest, Nat.lt_of_succ_lt h⟩
  | some ⟨value, .comma :: rest, h⟩ =>
    (items? rest).map fun read =>
      ⟨value :: read.value, read.rest, Nat.lt_trans read.rest_lt (Nat.lt_of_succ_lt h)⟩
  | some _ => none
termination_by (tokens.length, 1)
decreasing_by
  · exact Prod.Lex.right _ (by omega)
  · exact Prod.Lex.left _ _ (Nat.lt_of_succ_lt h)

/-- The fields of an object up to its closing brace. -/
def fields? (tokens : List JsonToken) :
    Option (Prefixed (List (Option String × JsonValue)) tokens) :=
  match tokens with
  | .str key? :: .colon :: after =>
    match value? after with
    | none => none
    | some ⟨value, .closeObject :: rest, h⟩ =>
      some ⟨[(key?, value)], rest, by simp only [List.length_cons] at h ⊢; omega⟩
    | some ⟨value, .comma :: rest, h⟩ =>
      (fields? rest).map fun read =>
        ⟨(key?, value) :: read.value, read.rest, by
          have := read.rest_lt
          simp only [List.length_cons] at h ⊢
          omega⟩
    | some _ => none
  | _ => none
termination_by (tokens.length, 1)
decreasing_by
  · exact Prod.Lex.left _ _ (by simp only [List.length_cons]; omega)
  · exact Prod.Lex.left _ _ (by simp only [List.length_cons] at h ⊢; omega)

end

/-- The value of a JSON text, if the text is well formed. -/
def parseJson? (text : String) : Option JsonValue :=
  match tokens? text.toList with
  | none => none
  | some tokens =>
    match value? tokens with
    | some ⟨value, [], _⟩ => some value
    | _ => none

end Stubgen.ModuleList
