import Stubgen.Event
import Stubgen.Ledger
import Stubgen.Text.Blank
import Stubgen.Text.Search

/-!
# Overrides

An override text is made of blocks between separator lines, which begin with two percent
signs. The first line of a block is a command, and the rest is its code. Most blocks bring
a wrapper written by hand in place of a generated one.
-/

namespace Stubgen

/-- How a wrapper receives its arguments. -/
inductive CallStyle where
  | keywords
  | noArguments
  | positional
  deriving DecidableEq

/-- A wrapper written by hand. -/
structure Override where
  style : CallStyle
  code : String

/-- What an override text holds, under the names that it is for. -/
structure OverrideSet where
  /-- The wrappers of functions and methods, under their native identifiers. -/
  wrappers : Ledger Override
  /-- The code of attributes. -/
  attributes : Ledger String
  /-- The code of type slots. -/
  slots : Ledger String
  /-- The names of what is left out, in the order of the text. -/
  ignores : List String

/-- A block of an override text. -/
inductive OverrideBlock where
  | wrapper (function : String) (override : Override)
  | attribute (name code : String)
  | slot (name code : String)
  | ignore (names : List String)
  /-- Other files that belong to the text. -/
  | include (names : List String)
  /-- A wrapper that does not tell what it is for. -/
  | nameless
  /-- A block that says nothing about signatures. -/
  | other

namespace OverrideBlock

/-- A text as its lines, each with the line feed that ends it. -/
def linesOf : List Char → List (List Char)
  | [] => []
  | c :: cs =>
    if c = '\n' then [c] :: linesOf cs
    else
      match linesOf cs with
      | [] => [[c]]
      | line :: lines => (c :: line) :: lines

/-- Whether a line separates blocks. -/
def isSeparator (line : List Char) : Bool :=
  ['%', '%'].isPrefixOf line

/-- The pieces of a text between its separator lines; one more than there are separators. -/
def pieces : List (List Char) → List (List Char)
  | [] => [[]]
  | line :: lines =>
    if isSeparator line then [] :: pieces lines
    else
      match pieces lines with
      | [] => [line]
      | piece :: rest => (line ++ piece) :: rest

/-- The style that the words after the name of a function ask for. -/
def styleOf (flags : List String) : CallStyle :=
  if "kwargs" ∈ flags then .keywords
  else if "noargs" ∈ flags then .noArguments
  else .positional

/-- Whether a command lists names to leave out. -/
def isIgnore (command : String) : Bool :=
  command = "ignore" || "ignore-".toList.isPrefixOf command.toList

/-- The words of a text. -/
def wordsOf (text : List Char) : List String :=
  (Text.words text).map String.ofList

/-- The block of a command line, as its words, and the code below it. -/
def ofCommand (line : List String) (code : List Char) : OverrideBlock :=
  match line with
  | [] => .other
  | "override" :: arguments =>
    match arguments with
    | [] => .nameless
    | function :: flags => .wrapper function ⟨styleOf flags, String.ofList code⟩
  | "override-attr" :: name :: _ => .attribute name (String.ofList code)
  | "override-slot" :: name :: _ => .slot name (String.ofList code)
  | "include" :: names => .include (names ++ wordsOf code)
  | command :: names => if isIgnore command then .ignore (names ++ wordsOf code) else .other

/-- The block that a piece of text is. Blanks around it do not count. -/
def ofPiece (piece : List Char) : OverrideBlock :=
  let block := Text.trim piece
  ofCommand (wordsOf (Text.upTo '\n' block)) ((block.dropWhile (· ≠ '\n')).drop 1)

/-- The blocks of a text. -/
def ofText (text : String) : List OverrideBlock :=
  (pieces (linesOf text.toList)).map ofPiece

/-- What there is to say about a block of a text without a place. -/
def events : OverrideBlock → List Event
  | .nameless => [.namelessOverride]
  | .include _ => [.misplacedInclude]
  | _ => []

end OverrideBlock

namespace OverrideSet

/-- The set without overrides. -/
def empty : OverrideSet :=
  ⟨.empty, .empty, .empty, []⟩

/-- The set with one more block. -/
def add (set : OverrideSet) : OverrideBlock → OverrideSet
  | .wrapper function override => { set with wrappers := set.wrappers.put function override }
  | .attribute name code => { set with attributes := set.attributes.put name code }
  | .slot name code => { set with slots := set.slots.put name code }
  | .ignore names => { set with ignores := set.ignores ++ names }
  | .include _ | .nameless | .other => set

/-- What a text holds that includes no other. -/
def ofText (text : String) : OverrideSet :=
  (OverrideBlock.ofText text).foldl add empty

/-- What there is to say about a text without a place. -/
def textEvents (text : String) : List Event :=
  (OverrideBlock.ofText text).flatMap OverrideBlock.events

end OverrideSet

end Stubgen
