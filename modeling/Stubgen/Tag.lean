import Stubgen.Text.Blank
import Stubgen.Text.Search

/-!
# Type tags

A tag is the text by which a definition or a wrapper names a native type. Every tag makes
sense in one way, and this decides both the value that a stub returns for it and the words
that describe it.
-/

namespace Stubgen

/-- A name with the tag of its type. -/
structure TypedName where
  name : String
  tag : String
  deriving DecidableEq

namespace Tag

/-- The tag of a function that returns nothing. -/
def nothing : String := "none"

/-- The tag of an unknown type. -/
def unspecified : String := "unspecified"

/-- The tags of the native integer types. -/
def integers : List String :=
  ["guint", "gint", "guint32", "gint32", "int", "uint", "long", "ulong",
   "guint*", "gint*", "guint32*", "gint32*", "int*", "uint*", "long*", "ulong*"]

/-- The ways in which a tag makes sense. -/
inductive Sense where
  | text
  | character
  | integer
  | nothing
  | boolean
  | anything
  | callable
  /-- The type is spelled out in words of the stub language. -/
  | explicit (words : String)
  | unspecified
  /-- An instance of the class with this native name. -/
  | instanceOf (nativeName : String)
  deriving DecidableEq

/-- The native class name in a tag: no pointer marks at its end, no qualifier before it. -/
def className (tag : List Char) : List Char :=
  Text.dropStart "const-".toList (tag.reverse.dropWhile (· = '*')).reverse

/-- The sense of a tag without blanks around it. -/
def senseOf (tag : String) : Sense :=
  if Text.occursIn "char*".toList tag.toList then .text
  else if tag = "gunichar" then .character
  else if tag ∈ integers then .integer
  else if tag = nothing then .nothing
  else if tag = "gboolean" then .boolean
  else if tag = "gpointer" then .anything
  else if tag = "Function" then .callable
  else
    match tag.toList with
    | [] => .unspecified
    | '!' :: c :: words => .explicit (String.ofList (c :: words))
    | _ =>
      if tag = unspecified then .unspecified
      else .instanceOf (String.ofList (className tag.toList))

/-- The sense of a tag. -/
def sense (tag : String) : Sense :=
  senseOf (Text.trimmed tag)

/-- A value of a type that is spelled out. -/
def explicitValue (words : String) : String :=
  let beginsWith (start : String) := start.toList.isPrefixOf words.toList
  if beginsWith "tuple" then "()"
  else if beginsWith "list" then "[]"
  else if beginsWith "dict" then "\x7b\x7d"
  else if beginsWith "object" then "object()"
  else
    match words with
    | "string" | "char" => "\"\""
    | "unicode" => "u\"\""
    | "integer" => "0"
    | "float" => "0.0"
    | "complex" => "0j"
    | "boolean" => "1"
    | _ => words

/-- What a stub returns for a tag. -/
inductive Placeholder where
  /-- The source of an expression, with a comment if need be. -/
  | value (source : String)
  | nothing
  deriving DecidableEq

/-- What a stub returns for a tag, where `shown` gives the name under which a native class
appears. -/
def placeholder (shown : String → String) (tag : String) : Placeholder :=
  match sense tag with
  | .text => .value "\"\""
  | .character => .value "u\"\""
  | .integer => .value "0"
  | .nothing => .nothing
  | .boolean => .value "1"
  | .anything => .value "\"\"  # Returns any value"
  | .callable => .value "lambda x: x  # Returns a callable function"
  | .explicit words => .value (explicitValue words)
  | .unspecified => .value "\"\"  # Unspecified type"
  | .instanceOf nativeName => .value (shown nativeName ++ "()")

/-- The type of a tag in words, where `shown` gives the name under which a native class
appears. -/
def describe (shown : String → String) (tag : String) : String :=
  match sense tag with
  | .text => "string"
  | .character => "unicode string"
  | .integer => "integer"
  | .nothing => "None"
  | .boolean => "boolean"
  | .anything => "any value"
  | .callable => "a callable"
  | .explicit words => words
  | .unspecified => "unspecified type"
  | .instanceOf nativeName => "instance of " ++ shown nativeName

/-- Whether a tag spells its type out. -/
def isExplicit (tag : String) : Bool :=
  tag.toList.head? = some '!'

end Tag

end Stubgen
