import Stubgen.Constant.Decimal

/-!
# Constants

A constant of a live module is written as a literal of the stub language. A member of an
enumeration or of a set of flags is wrapped in its type if the type is known.
-/

namespace Stubgen

/-- A constant of a live module. -/
inductive Constant where
  /-- A member of an enumeration; it may have no integer value. -/
  | enumMember (type : String) (value? : Option Int)
  /-- A member of a set of flags; it may have no integer value. -/
  | flag (type : String) (value? : Option Int)
  | int (value : Int)
  | bool (value : Bool)
  /-- A floating-point number, as the bits of its double format. -/
  | float (bits : UInt64)
  | str (value : String)

namespace Constant

/-- An integer in decimal digits. -/
def decimal (n : Int) : String :=
  toString n

/-- An integer in hexadecimal digits, with the sign in front. -/
def hexadecimal (n : Int) : String :=
  (if n < 0 then "-0x" else "0x") ++ String.ofList (Nat.toDigits 16 n.natAbs)

/-- Two hexadecimal digits of a small number. -/
def twoDigits (n : Nat) : List Char :=
  [Nat.digitChar (n / 16 % 16), Nat.digitChar (n % 16)]

/-- A character between single quotes. -/
def escapeChar (c : Char) : List Char :=
  if c = '\\' then ['\\', '\\']
  else if c = '\'' then ['\\', '\'']
  else if c = '\n' then ['\\', 'n']
  else if c = '\r' then ['\\', 'r']
  else if c = '\t' then ['\\', 't']
  else if c.toNat < 0x20 ∨ c.toNat = 0x7f then ['\\', 'x'] ++ twoDigits c.toNat
  else [c]

/-- A string between single quotes. -/
def quotedLiteral (s : String) : String :=
  String.ofList ('\'' :: s.toList.flatMap escapeChar ++ ['\''])

/-- A positive number by its digits and the exponent of the last one, written out with a
decimal point. -/
def positional (digits : List Char) (exponent : Int) : List Char :=
  if 0 ≤ exponent then digits ++ List.replicate exponent.toNat '0' ++ ['.', '0']
  else
    let places := (-exponent).toNat
    if places < digits.length then
      digits.take (digits.length - places) ++ '.' :: digits.drop (digits.length - places)
    else ['0', '.'] ++ List.replicate (places - digits.length) '0' ++ digits

/-- A positive number by its digits and the exponent of the first one, written with that
exponent. -/
def scientific (digits : List Char) (exponent : Int) : List Char :=
  let fraction := digits.drop 1
  digits.take 1 ++ (if fraction = [] then [] else '.' :: fraction) ++
    'e' :: (decimal exponent).toList

/-- A positive number. It is written out if the exponent of its first digit is at least -4
and less than 16. -/
def positive (number : Decimal.Value) : List Char :=
  let (digits, exponent) := Decimal.dropZeros (Nat.toDigits 10 number.digits) number.exponent
  let leading := exponent + digits.length - 1
  if -5 < leading ∧ leading < 16 then positional digits exponent else scientific digits leading

/-- A floating-point number: the shortest digits that read back. -/
def floatLiteral (bits : UInt64) : String :=
  let negative := Nat.pow 2 63 ≤ bits.toNat
  let sign := if negative then "-" else ""
  let exponent : Nat := bits.toNat / Nat.pow 2 52 % Nat.pow 2 11
  let fraction : Nat := bits.toNat % Nat.pow 2 52
  if exponent = 2047 then
    if fraction = 0 then "float('" ++ sign ++ "inf')" else "float('nan')"
  else if exponent = 0 ∧ fraction = 0 then sign ++ "0.0"
  else
    let interval :=
      if exponent = 0 then Decimal.Interval.ofBinary fraction (-1074) false
      else
        Decimal.Interval.ofBinary (Nat.pow 2 52 + fraction) ((exponent : Int) - 1075)
          (fraction = 0 && exponent ≠ 1)
    sign ++ String.ofList (positive interval.shortest)

/-- A literal, wrapped in its type if the type is known. -/
def wrapped (isKnown : String → Bool) (type literal : String) : String :=
  if isKnown type then type ++ "(" ++ literal ++ ")" else literal

/-- The right-hand side of a constant. -/
def render (isKnown : String → Bool) : Constant → String
  | enumMember type value? => wrapped isKnown type ((value?.map decimal).getD "0")
  | flag type value? => wrapped isKnown type ((value?.map hexadecimal).getD "0")
  | int value => decimal value
  | bool value => if value then "True" else "False"
  | float bits => floatLiteral bits
  | str value => quotedLiteral value

end Constant

end Stubgen
