import Mathlib.Tactic.SplitIfs
import Stubgen.Constant.Basic

/-!
# Literals read back

A constant is written as a literal of the stub language, perhaps within a call of its type. This
file reads such literals: numbers with a sign, in decimal or in hexadecimal digits, truth values,
and strings between single quotes. A literal that was written for a constant is read as its value.
Between the quotes of a string there is no quote without a backslash and no control character of
ASCII. The other control characters stand there as they are.
-/

namespace Stubgen

/-- The two ways to write a number. -/
inductive Radix where
  | decimal
  | hexadecimal
  deriving DecidableEq

/-- What a literal denotes, and the way in which a number is written. -/
inductive Literal where
  | integer (radix : Radix) (value : Int)
  | truth (value : Bool)
  | text (value : String)
  deriving DecidableEq

namespace Literal

/-- A control character of ASCII. -/
def IsAsciiControl (c : Char) : Prop :=
  c.toNat < 0x20 ∨ c.toNat = 0x7f

instance : DecidablePred IsAsciiControl := fun c =>
  inferInstanceAs (Decidable (c.toNat < 0x20 ∨ c.toNat = 0x7f))

/-- A control character of Unicode. -/
def IsControl (c : Char) : Prop :=
  c.toNat < 0x20 ∨ 0x7f ≤ c.toNat ∧ c.toNat ≤ 0x9f

instance : DecidablePred IsControl := fun c =>
  inferInstanceAs (Decidable (c.toNat < 0x20 ∨ 0x7f ≤ c.toNat ∧ c.toNat ≤ 0x9f))

/-! ## Reading -/

/-- The value of a digit in a base of at most sixteen. Capital letters are digits, too. -/
def digit? (base : Nat) (c : Char) : Option Nat :=
  ("0123456789abcdef".toList.idxOf? c.toLower).filter (· < base)

/-- The number that digits write after those of another number. -/
def numberAfter? (base : Nat) (n : Nat) : List Char → Option Nat
  | [] => some n
  | c :: rest => (digit? base c).bind fun value => numberAfter? base (base * n + value) rest

/-- The number that digits write; at least one is needed. -/
def number? (base : Nat) (digits : List Char) : Option Nat :=
  if digits = [] then none else numberAfter? base 0 digits

/-- A number without a sign. Decimal digits begin with a zero only if it is the only one. -/
def unsigned? : List Char → Option (Radix × Nat)
  | ['0'] => some (.decimal, 0)
  | '0' :: 'x' :: digits => (number? 16 digits).map (.hexadecimal, ·)
  | '0' :: _ => none
  | digits => (number? 10 digits).map (.decimal, ·)

/-- A number, perhaps with a minus in front. -/
def integer? : List Char → Option Literal
  | '-' :: digits => (unsigned? digits).map fun number => integer number.1 (-number.2)
  | digits => (unsigned? digits).map fun number => integer number.1 number.2

/-- A truth value. -/
def truth? (source : List Char) : Option Literal :=
  if source = "True".toList then some (truth true)
  else if source = "False".toList then some (truth false)
  else none

/-- The character that a letter after a backslash stands for. -/
def shortEscape? : Char → Option Char
  | '\\' => some '\\'
  | '\'' => some '\''
  | 'n' => some '\n'
  | 'r' => some '\r'
  | 't' => some '\t'
  | _ => none

/-- The characters of a string after its opening quote. The first quote that no backslash precedes
is the closing one, and nothing may follow it. Two hexadecimal digits give the code point of a
character; control characters of ASCII have to be written in some such way. -/
def body? : List Char → Option (List Char)
  | [] => none
  | '\\' :: 'x' :: high :: low :: rest =>
    (number? 16 [high, low]).bind fun code => (body? rest).map (Char.ofNat code :: ·)
  | '\\' :: letter :: rest => (shortEscape? letter).bind fun c => (body? rest).map (c :: ·)
  | c :: rest =>
    if c = '\'' then if rest = [] then some [] else none
    else if c = '\\' ∨ IsAsciiControl c then none
    else (body? rest).map (c :: ·)

/-- A string between single quotes. -/
def text? : List Char → Option Literal
  | '\'' :: rest => (body? rest).map fun characters => text (String.ofList characters)
  | _ => none

/-- What a literal denotes. -/
def read? (source : String) : Option Literal :=
  (integer? source.toList).or ((truth? source.toList).or (text? source.toList))

/-- A text between quotes has a quote that no backslash precedes. -/
def HoldsBareQuote : List Char → Prop
  | [] => False
  | '\\' :: _ :: rest => HoldsBareQuote rest
  | c :: rest => c = '\'' ∨ HoldsBareQuote rest

/-! ## Numbers -/

/-- The digit of a value is read as the value. -/
theorem digit?_digitChar {base value : Nat} (hbase : base ≤ 16) (hvalue : value < base) :
    digit? base (Nat.digitChar value) = some value := by
  have hall : ∀ value < 16,
      "0123456789abcdef".toList.idxOf? (Nat.digitChar value).toLower = some value := by
    decide
  rw [digit?, hall value (by omega), Option.filter_some, if_pos (by simpa using hvalue)]

/-- More digits go on with the number. -/
theorem numberAfter?_append (base n : Nat) (front rest : List Char) :
    numberAfter? base n (front ++ rest) =
      (numberAfter? base n front).bind fun m => numberAfter? base m rest := by
  induction front generalizing n with
  | nil => rfl
  | cons c front ih =>
    rw [List.cons_append, numberAfter?, numberAfter?]
    cases digit? base c with
    | none => rfl
    | some value => exact ih _

/-- The digits of a number are read as the number. -/
theorem numberAfter?_toDigits {base : Nat} (hbase : 1 < base) (hlarge : base ≤ 16) (n : Nat) :
    numberAfter? base 0 (Nat.toDigits base n) = some n := by
  induction n using Nat.strongRecOn with
  | ind n ih =>
    by_cases hsmall : n < base
    · rw [Nat.toDigits_of_lt_base hsmall, numberAfter?, digit?_digitChar hlarge hsmall]
      simp [numberAfter?]
    · have hrest : n % base < base := Nat.mod_lt n (by omega)
      have hfront := ih (n / base) (Nat.div_lt_self (by omega) hbase)
      rw [Nat.toDigits_of_base_le hbase (by omega), numberAfter?_append, hfront,
        Option.bind_some, numberAfter?, digit?_digitChar hlarge hrest, Option.bind_some,
        numberAfter?, Nat.div_add_mod]

/-- Only the digits of zero begin with a zero. -/
theorem eq_zero_of_toDigits {base n : Nat} {rest : List Char} (hbase : 1 < base)
    (hdigits : Nat.toDigits base n = '0' :: rest) : n = 0 := by
  induction n using Nat.strongRecOn generalizing rest with
  | ind n ih =>
    by_cases hsmall : n < base
    · rw [Nat.toDigits_of_lt_base hsmall] at hdigits
      exact Nat.digitChar_eq_zero.mp (List.cons.inj hdigits).1
    · rw [Nat.toDigits_of_base_le hbase (by omega)] at hdigits
      obtain ⟨c, front, hfront⟩ := List.exists_cons_of_ne_nil
        (Nat.toDigits_ne_nil (n := n / base) (b := base))
      rw [hfront, List.cons_append] at hdigits
      obtain ⟨rfl, -⟩ := List.cons.inj hdigits
      have hzero := ih (n / base) (Nat.div_lt_self (by omega) hbase) hfront
      rw [Nat.div_eq_zero_iff] at hzero
      omega

/-- Decimal digits are read as a number without a sign. -/
theorem unsigned?_decimal (n : Nat) : unsigned? (Nat.toDigits 10 n) = some (.decimal, n) := by
  have hread := numberAfter?_toDigits (by decide : 1 < 10) (by decide) n
  obtain ⟨c, rest, hdigits⟩ := List.exists_cons_of_ne_nil (Nat.toDigits_ne_nil (n := n) (b := 10))
  rw [hdigits] at hread ⊢
  by_cases hzero : c = '0'
  · obtain rfl := eq_zero_of_toDigits (by decide) (hzero ▸ hdigits)
    rw [Nat.toDigits_zero] at hdigits
    rw [← hdigits]
    rfl
  · rw [unsigned?]
    · simp [number?, hread]
    all_goals simp [hzero]

/-- Hexadecimal digits behind their mark are read as a number without a sign. -/
theorem unsigned?_hexadecimal (n : Nat) :
    unsigned? ('0' :: 'x' :: Nat.toDigits 16 n) = some (.hexadecimal, n) := by
  rw [unsigned?, number?, if_neg Nat.toDigits_ne_nil,
    numberAfter?_toDigits (by decide) (by decide)]
  rfl

/-- A number without a sign does not begin with a minus. -/
theorem head_ne_minus {digits : List Char} {number : Radix × Nat}
    (hread : unsigned? digits = some number) (rest : List Char) : digits ≠ '-' :: rest := by
  rintro rfl
  have hdigit : digit? 10 '-' = none := by decide
  simp [unsigned?, number?, numberAfter?, hdigit] at hread

/-- A number is read as its value if its absolute value is read after the sign. -/
theorem integer?_of_unsigned? {digits : List Char} {radix : Radix} {n : Int}
    (hread : unsigned? digits = some (radix, n.natAbs)) :
    integer? (if n < 0 then '-' :: digits else digits) = some (integer radix n) := by
  split
  · next hnegative =>
    have hvalue : -(n.natAbs : Int) = n := by omega
    rw [integer?, hread, Option.map_some, hvalue]
  · next hnonnegative =>
    have hvalue : (n.natAbs : Int) = n := by omega
    rw [integer?, hread, Option.map_some, hvalue]
    exact head_ne_minus hread

/-- A decimal number is its digits, with a minus in front if it is negative. -/
theorem toList_decimal (n : Int) : (Constant.decimal n).toList =
    if n < 0 then '-' :: Nat.toDigits 10 n.natAbs else Nat.toDigits 10 n.natAbs := by
  rw [Constant.decimal, Int.toString_eq_repr, Int.repr_eq_if]
  split
  · next hnonnegative =>
    have hvalue : n.toNat = n.natAbs := by omega
    rw [if_neg (by omega), hvalue, Nat.repr_eq_ofList_toDigits, String.toList_ofList]
  · next hnegative =>
    have hvalue : (-n).toNat = n.natAbs := by omega
    have hminus : "-".toList = ['-'] := rfl
    rw [if_pos (by omega), hvalue, Nat.repr_eq_ofList_toDigits, String.toList_append, hminus,
      String.toList_ofList, List.singleton_append]

/-- A hexadecimal number is its digits behind their mark, with a minus in front if it is
negative. -/
theorem toList_hexadecimal (n : Int) : (Constant.hexadecimal n).toList =
    if n < 0 then '-' :: '0' :: 'x' :: Nat.toDigits 16 n.natAbs
    else '0' :: 'x' :: Nat.toDigits 16 n.natAbs := by
  rw [Constant.hexadecimal, String.toList_append, String.toList_ofList]
  split <;> rfl

/-- A decimal number is read as its value. -/
theorem read?_decimal (n : Int) : read? (Constant.decimal n) = some (integer .decimal n) := by
  rw [read?, toList_decimal, integer?_of_unsigned? (unsigned?_decimal n.natAbs), Option.some_or]

/-- A hexadecimal number is read as its value. -/
theorem read?_hexadecimal (n : Int) :
    read? (Constant.hexadecimal n) = some (integer .hexadecimal n) := by
  rw [read?, toList_hexadecimal, integer?_of_unsigned? (unsigned?_hexadecimal n.natAbs),
    Option.some_or]

/-! ## Strings -/

/-- A character between quotes stands there as it is, or for a letter after a backslash, or for two
digits that give its code point. -/
theorem escapeChar_cases (c : Char) :
    (Constant.escapeChar c = [c] ∧ c ≠ '\'' ∧ c ≠ '\\' ∧ ¬IsAsciiControl c) ∨
    (∃ letter, Constant.escapeChar c = ['\\', letter] ∧ shortEscape? letter = some c) ∨
    (Constant.escapeChar c = '\\' :: 'x' :: Constant.twoDigits c.toNat ∧ IsAsciiControl c) := by
  unfold Constant.escapeChar
  split_ifs with hbackslash hquote hlineFeed hreturn htab hcontrol
  · exact .inr (.inl ⟨'\\', rfl, by rw [hbackslash, shortEscape?]⟩)
  · exact .inr (.inl ⟨'\'', rfl, by rw [hquote, shortEscape?]⟩)
  · exact .inr (.inl ⟨'n', rfl, by rw [hlineFeed, shortEscape?]⟩)
  · exact .inr (.inl ⟨'r', rfl, by rw [hreturn, shortEscape?]⟩)
  · exact .inr (.inl ⟨'t', rfl, by rw [htab, shortEscape?]⟩)
  · exact .inr (.inr ⟨rfl, hcontrol⟩)
  · exact .inl ⟨rfl, hquote, hbackslash, hcontrol⟩

/-- The letter that announces two digits stands for no character. -/
theorem letter_ne_x {letter c : Char} (h : shortEscape? letter = some c) : letter ≠ 'x' := by
  rintro rfl
  exact nomatch h

/-- Two digits are read as the code point of a control character. -/
theorem number?_twoDigits {c : Char} (hcontrol : IsAsciiControl c) :
    number? 16 (Constant.twoDigits c.toNat) = some c.toNat := by
  have hsmall : c.toNat < 256 := by
    rcases hcontrol with h | h
    · omega
    · omega
  have hhigh : c.toNat / 16 % 16 < 16 := Nat.mod_lt _ (by decide)
  have hlow : c.toNat % 16 < 16 := Nat.mod_lt _ (by decide)
  have hvalue : 16 * (16 * 0 + c.toNat / 16 % 16) + c.toNat % 16 = c.toNat := by omega
  simp only [number?, Constant.twoDigits, numberAfter?, digit?_digitChar (Nat.le_refl 16) hhigh,
    digit?_digitChar (Nat.le_refl 16) hlow, Option.bind_some, hvalue]
  rfl

/-- A character between quotes is read as the character, whatever follows. -/
theorem body?_escapeChar (c : Char) (rest : List Char) :
    body? (Constant.escapeChar c ++ rest) = (body? rest).map (c :: ·) := by
  rcases escapeChar_cases c with ⟨heq, hquote, hbackslash, hplain⟩ | ⟨letter, heq, hletter⟩ |
    ⟨heq, hcontrol⟩
  · rw [heq, List.singleton_append, body?]
    · rw [if_neg hquote, if_neg (not_or.mpr ⟨hbackslash, hplain⟩)]
    · intro _ _ _ h
      exact absurd h hbackslash
    · intro _ _ h
      exact absurd h hbackslash
  · rw [heq, List.cons_append, List.singleton_append, body?, hletter, Option.bind_some]
    intro _ _ _ h
    exact absurd h (letter_ne_x hletter)
  · have hcode := number?_twoDigits hcontrol
    rw [Constant.twoDigits] at hcode
    rw [heq, Constant.twoDigits, List.cons_append, List.cons_append, List.cons_append,
      List.singleton_append, body?, hcode, Option.bind_some, Char.ofNat_toNat]

/-- A string between quotes is read as the string. -/
theorem read?_quotedLiteral (s : String) : read? (Constant.quotedLiteral s) = some (text s) := by
  have hbody (characters : List Char) :
      body? (characters.flatMap Constant.escapeChar ++ ['\'']) = some characters := by
    induction characters with
    | nil => rfl
    | cons c rest ih =>
      rw [List.flatMap_cons, List.append_assoc, body?_escapeChar, ih, Option.map_some]
  have hquote : unsigned? ('\'' :: (s.toList.flatMap Constant.escapeChar ++ ['\''])) = none := by
    have hdigit : digit? 10 '\'' = none := by decide
    simp [unsigned?, number?, numberAfter?, hdigit]
  rw [read?, Constant.quotedLiteral, String.toList_ofList, List.cons_append, integer?, hquote,
    Option.map_none, Option.none_or, truth?, if_neg (by simp), if_neg (by simp), Option.none_or,
    text?, hbody, Option.map_some, String.ofList_toList]
  simp

/-- Digits are neither quotes nor backslashes nor control characters. -/
theorem twoDigits_plain (n : Nat) :
    ∀ c ∈ Constant.twoDigits n, c ≠ '\'' ∧ c ≠ '\\' ∧ ¬IsControl c := by
  have hdigit : ∀ d < 16,
      Nat.digitChar d ≠ '\'' ∧ Nat.digitChar d ≠ '\\' ∧ ¬IsControl (Nat.digitChar d) := by
    decide
  intro c hc
  simp only [Constant.twoDigits, List.mem_cons, List.not_mem_nil, or_false] at hc
  rcases hc with rfl | rfl
  · exact hdigit _ (Nat.mod_lt _ (by decide))
  · exact hdigit _ (Nat.mod_lt _ (by decide))

/-- No letter that stands for a character is a control character, and no character that has such a
letter is a control character outside ASCII. -/
theorem not_isControl_letter {letter c : Char} (h : shortEscape? letter = some c) :
    ¬IsControl letter ∧ (IsControl c → IsAsciiControl c) := by
  unfold shortEscape? at h
  split at h
  all_goals cases h
  all_goals decide

/-- A control character of ASCII is one of Unicode. -/
theorem IsAsciiControl.isControl {c : Char} (h : IsAsciiControl c) : IsControl c := by
  rcases h with h | h
  · exact .inl h
  · exact .inr (by omega)

/-- A character between quotes holds no bare quote, whatever follows. -/
theorem holdsBareQuote_escapeChar (c : Char) (rest : List Char) :
    HoldsBareQuote (Constant.escapeChar c ++ rest) ↔ HoldsBareQuote rest := by
  have hplain {c : Char} (hquote : c ≠ '\'') (hbackslash : c ≠ '\\') (rest : List Char) :
      HoldsBareQuote (c :: rest) ↔ HoldsBareQuote rest := by
    rw [HoldsBareQuote]
    · simp [hquote]
    · intro _ _ h
      exact absurd h hbackslash
  rcases escapeChar_cases c with ⟨heq, hquote, hbackslash, -⟩ | ⟨letter, heq, -⟩ | ⟨heq, -⟩
  · rw [heq, List.singleton_append, hplain hquote hbackslash]
  · rw [heq, List.cons_append, List.singleton_append, HoldsBareQuote]
  · have hdigits := twoDigits_plain c.toNat
    rw [Constant.twoDigits] at hdigits
    obtain ⟨hhighQuote, hhighBackslash, -⟩ := hdigits _ List.mem_cons_self
    obtain ⟨hlowQuote, hlowBackslash, -⟩ := hdigits _ (List.mem_cons_of_mem _ List.mem_cons_self)
    rw [heq, Constant.twoDigits, List.cons_append, List.cons_append, HoldsBareQuote,
      List.cons_append, hplain hhighQuote hhighBackslash, List.singleton_append,
      hplain hlowQuote hlowBackslash]

/-- A control character stands between quotes only for itself, and only outside ASCII. -/
theorem mem_escapeChar_iff {c d : Char} (hcontrol : IsControl c) :
    c ∈ Constant.escapeChar d ↔ d = c ∧ ¬IsAsciiControl c := by
  have hbackslash : c ≠ '\\' := by
    rintro rfl
    exact absurd hcontrol (by decide)
  have hletter : c ≠ 'x' := by
    rintro rfl
    exact absurd hcontrol (by decide)
  rcases escapeChar_cases d with ⟨heq, -, -, hplain⟩ | ⟨letter, heq, hshort⟩ | ⟨heq, hascii⟩
  · rw [heq, List.mem_singleton, eq_comm]
    refine ⟨?_, And.left⟩
    rintro rfl
    exact ⟨rfl, hplain⟩
  · obtain ⟨hnone, hascii⟩ := not_isControl_letter hshort
    rw [heq]
    constructor
    · intro hmem
      rcases List.mem_cons.mp hmem with h | h
      · exact absurd h hbackslash
      · obtain rfl := List.mem_singleton.mp h
        exact absurd hcontrol hnone
    · rintro ⟨rfl, hno⟩
      exact absurd (hascii hcontrol) hno
  · rw [heq]
    constructor
    · intro hmem
      rcases List.mem_cons.mp hmem with h | h
      · exact absurd h hbackslash
      · rcases List.mem_cons.mp h with h | h
        · exact absurd h hletter
        · exact absurd hcontrol (twoDigits_plain _ c h).2.2
    · rintro ⟨rfl, hno⟩
      exact absurd hascii hno

end Literal

namespace Constant

/-! ## What a constant denotes -/

/-- The type that a constant may be wrapped in. -/
def type? : Constant → Option String
  | enumMember type _ => some type
  | flag type _ => some type
  | _ => none

/-- The literal that is written for the value of a constant. -/
def literal : Constant → String
  | enumMember _ value? => (value?.map decimal).getD "0"
  | flag _ value? => (value?.map hexadecimal).getD "0"
  | int value => decimal value
  | bool value => if value then "True" else "False"
  | float bits => floatLiteral bits
  | str value => quotedLiteral value

/-- What the literal of a constant has to denote; a value that is missing counts as zero. Numbers
with a fractional part are left out of account. -/
def denoted? : Constant → Option Literal
  | enumMember _ value? => some (.integer .decimal (value?.getD 0))
  | flag _ (some value) => some (.integer .hexadecimal value)
  | flag _ none => some (.integer .decimal 0)
  | int value => some (.integer .decimal value)
  | bool value => some (.truth value)
  | float _ => none
  | str value => some (.text value)

/-- A literal stands between single quotes, without a quote inside that no backslash precedes and
without control characters of ASCII. The other control characters in it are those of the string. -/
structure IsQuotation (s literal : String) : Prop where
  quoted : ∃ body, literal.toList = '\'' :: body ++ ['\''] ∧ ¬Literal.HoldsBareQuote body
  not_asciiControl : ∀ c ∈ literal.toList, ¬Literal.IsAsciiControl c
  mem_iff : ∀ c, Literal.IsControl c →
    (c ∈ literal.toList ↔ c ∈ s.toList ∧ ¬Literal.IsAsciiControl c)

/-- A constant is written as its literal, in a call of its type if that is known. -/
theorem render_eq (isKnown : String → Bool) (constant : Constant) :
    constant.render isKnown =
      match constant.type? with
      | some type => if isKnown type then type ++ "(" ++ constant.literal ++ ")"
        else constant.literal
      | none => constant.literal := by
  cases constant <;> rfl

/-- The literal of a string is a quotation of it. -/
theorem isQuotation_quotedLiteral (s : String) : IsQuotation s (quotedLiteral s) := by
  have hbody (characters : List Char) :
      ¬Literal.HoldsBareQuote (characters.flatMap escapeChar) := by
    induction characters with
    | nil => exact id
    | cons c rest ih => rwa [List.flatMap_cons, Literal.holdsBareQuote_escapeChar]
  have hmem (c : Char) (hcontrol : Literal.IsControl c) :
      c ∈ (quotedLiteral s).toList ↔ c ∈ s.toList ∧ ¬Literal.IsAsciiControl c := by
    have hquote : c ≠ '\'' := by
      rintro rfl
      exact absurd hcontrol (by decide)
    simp [quotedLiteral, hquote, List.mem_flatMap, Literal.mem_escapeChar_iff hcontrol,
      ← and_assoc]
  refine ⟨⟨_, by rw [quotedLiteral, String.toList_ofList], hbody _⟩, fun c hc hascii => ?_, hmem⟩
  exact ((hmem c hascii.isControl).mp hc).2 hascii

/-- Whatever is known, a constant is written as a literal, in a call of its type if that is known,
and the literal is read as the value: enumeration members and integers in decimal digits, flags in
hexadecimal ones with the sign in front, truth values by their names, a missing value as zero, and
a string as a quotation of exactly its characters. -/
theorem render_denotes (isKnown : String → Bool) (constant : Constant) {value : Literal}
    (hvalue : constant.denoted? = some value) :
    ∃ literal,
      constant.render isKnown =
        (match constant.type? with
        | some type => if isKnown type then type ++ "(" ++ literal ++ ")" else literal
        | none => literal) ∧
      Literal.read? literal = some value ∧
      ∀ s, constant = str s → IsQuotation s literal := by
  refine ⟨constant.literal, constant.render_eq isKnown, ?_, ?_⟩
  · rw [← hvalue]
    have hzero : Literal.read? "0" = some (.integer .decimal 0) := by decide
    cases constant with
    | enumMember type value? =>
      cases value? with
      | none => exact hzero
      | some n => exact Literal.read?_decimal n
    | flag type value? =>
      cases value? with
      | none => exact hzero
      | some n => exact Literal.read?_hexadecimal n
    | int n => exact Literal.read?_decimal n
    | bool b =>
      cases b with
      | true => decide
      | false => decide
    | float bits => exact nomatch hvalue
    | str s => exact Literal.read?_quotedLiteral s
  · rintro s rfl
    exact isQuotation_quotedLiteral s

/-- The least set of flags within a known type, and a string with a quote, a backslash, a null
character and a control character outside ASCII. -/
theorem render_denotes_of_extremes :
    let least := flag "T" (some (-9223372036854775808))
    let quoted := str "'\\\x00\u0085"
    (least.denoted? = some (.integer .hexadecimal (-9223372036854775808)) ∧
      ∃ literal, least.render (· = "T") = "T(" ++ literal ++ ")" ∧
        Literal.read? literal = some (.integer .hexadecimal (-9223372036854775808))) ∧
    quoted.denoted? = some (.text "'\\\x00\u0085") ∧
      ∃ literal, quoted.render (fun _ => false) = literal ∧
        Literal.read? literal = some (.text "'\\\x00\u0085") ∧
        IsQuotation "'\\\x00\u0085" literal := by
  intro least quoted
  obtain ⟨literal, hrender, hread, -⟩ := render_denotes (· = "T") least rfl
  obtain ⟨literal', hrender', hread', hquotation⟩ := render_denotes (fun _ => false) quoted rfl
  exact ⟨⟨rfl, literal, hrender, hread⟩, rfl, literal', hrender', hread', hquotation _ rfl⟩

/-- The character that begins a next line is a control character, and it stands between the quotes
as it is. -/
theorem next_line_stands_raw :
    Literal.IsControl '\u0085' ∧
      '\u0085' ∈ ((str "\u0085").render fun _ => false).toList := by
  decide

end Constant

end Stubgen
