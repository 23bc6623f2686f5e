import Stubgen.Ledger
import Stubgen.Text.Unprintable

/-!
# Live modules

An interpreter can import some modules and fails to import others. The attributes of a
module are values under names; only some kinds of value matter for a stub.
-/

namespace Stubgen

/-- The base types that a member of a type has. -/
inductive MemberBase where
  | enum
  | flags
  | both
  deriving DecidableEq

/-- A value of an attribute. -/
inductive AttributeValue where
  | int (value : Int)
  | bool (value : Bool)
  /-- A floating-point number, as the bits of its double format. -/
  | float (bits : UInt64)
  | str (value : String)
  /-- An instance of a type that derives from a base type; without an integer value if the
  type does not derive from the integers. -/
  | member (base : MemberBase) (type : String) (value? : Option Int)
  /-- Any other value. -/
  | other

/-- An attribute of a module. Its key may be something else than a text. -/
structure Attribute where
  name? : Option String
  value : AttributeValue

/-- What importing a module does. -/
inductive Import where
  | succeeds (attributes : List Attribute)
  | raises (exception message : String)

/-- Whether the base types of members can be imported. -/
inductive BaseTypes where
  | available
  | absent
  /-- The module that should hold them is there but lacks them. -/
  | broken
  deriving DecidableEq

/-- An interpreter. -/
structure Interpreter where
  baseTypes : BaseTypes
  /-- The modules that importing finds. -/
  modules : List (String × Import)

/-- A code point in lower-case hexadecimal digits, with zeros in front. -/
def paddedHex (places n : Nat) : List Char :=
  let digits := Nat.toDigits 16 n
  List.replicate (places - digits.length) '0' ++ digits

/-- A character as the interpreter shows it inside the given quotes. -/
def shownChar (quote c : Char) : List Char :=
  if c = quote ∨ c = '\\' then ['\\', c]
  else if c = '\t' then ['\\', 't']
  else if c = '\n' then ['\\', 'n']
  else if c = '\r' then ['\\', 'r']
  else if Text.unprintable.contains c then
    if c.toNat < 0x100 then ['\\', 'x'] ++ paddedHex 2 c.toNat
    else if c.toNat < 0x10000 then ['\\', 'u'] ++ paddedHex 4 c.toNat
    else ['\\', 'U'] ++ paddedHex 8 c.toNat
  else [c]

/-- A text as the interpreter shows it: between single quotes, or between double quotes if
it holds single quotes only. -/
def shownText (s : String) : String :=
  let quote := if '\'' ∈ s.toList ∧ '"' ∉ s.toList then '"' else '\''
  String.ofList (quote :: s.toList.flatMap (shownChar quote) ++ [quote])

/-- The message of an exception as the interpreter shows it. The exception of a missing key
shows the key. -/
def shownMessage (exception message : String) : String :=
  if exception = "KeyError" then shownText message else message

end Stubgen
