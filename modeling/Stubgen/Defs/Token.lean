import Stubgen.Text.Measure

/-!
# Tokens of definition texts

A definition text is made of parentheses, quote marks, strings between double quotes
and atoms. Blank space and comments, which run from a semicolon to the end of the line,
separate them. A string that cannot be completed becomes one invalid token, and the scan
goes on where it ends.
-/

namespace Stubgen.Defs

/-- A token of a definition text. -/
inductive Token where
  /-- An opening parenthesis. -/
  | opening
  /-- A closing parenthesis. -/
  | closing
  /-- A quote mark. -/
  | quote
  /-- A string, with its escapes resolved. -/
  | str (text : String)
  /-- A run of other characters. -/
  | atom (text : String)
  /-- The source of a string that cannot be completed. -/
  | invalid (source : String)
  deriving DecidableEq

/-- A place in a text. -/
structure Position where
  /-- The number of bytes before it. -/
  offset : Nat
  /-- The line, counted from one. -/
  line : Nat
  deriving DecidableEq

/-- The beginning of a text. -/
def Position.start : Position :=
  ⟨0, 1⟩

/-- The place after a piece of text. -/
def Position.after (position : Position) (piece : List Char) : Position :=
  ⟨position.offset + Text.byteLength piece, position.line + piece.count '\n'⟩

/-- A token together with where it begins and ends. -/
structure Lexeme where
  token : Token
  start : Position
  stop : Position
  deriving DecidableEq

/-- Space, tab, carriage return, line feed and form feed separate tokens. -/
def isGap (c : Char) : Bool :=
  c = ' ' || c = '\t' || c = '\r' || c = '\n' || c = '\x0c'

/-- The characters that end an atom. -/
def isDelimiter (c : Char) : Bool :=
  isGap c || c = '(' || c = ')' || c = '\'' || c = '"' || c = ';'

/-- The longest body of a string at the beginning of a text: characters other than the
double quote and the backslash, and pairs of a backslash and any character but the line
feed. -/
def stringBody : List Char → List Char
  | [] => []
  | [c] => if c = '"' ∨ c = '\\' then [] else [c]
  | c :: d :: cs =>
    if c = '"' then []
    else if c = '\\' then
      if d = '\n' then [] else c :: d :: stringBody cs
    else c :: stringBody (d :: cs)

/-- The body of a string with its escapes resolved: `\n` and `\t` are the line feed and
the tab, and any other escaped character is itself. -/
def unescape : List Char → List Char
  | [] => []
  | [c] => [c]
  | c :: d :: cs =>
    if c = '\\' then
      (if d = 'n' then '\n' else if d = 't' then '\t' else d) :: unescape cs
    else c :: unescape (d :: cs)

/-- The first token of a text that does not begin with a gap or a comment, and the
characters it is made of. -/
def tokenAt (c : Char) (cs : List Char) : Token × List Char :=
  if c = '(' then (.opening, [c])
  else if c = ')' then (.closing, [c])
  else if c = '\'' then (.quote, [c])
  else if c = '"' then
    let body := stringBody cs
    match cs.drop body.length with
    | '"' :: _ => (.str (String.ofList (unescape body)), c :: body ++ ['"'])
    | _ => (.invalid (String.ofList (c :: body)), c :: body)
  else
    let piece := c :: cs.takeWhile (! isDelimiter ·)
    (.atom (String.ofList piece), piece)

/-- The lexemes of a text that begins at the given place. -/
def lexFrom (position : Position) (text : List Char) : List Lexeme :=
  match text with
  | [] => []
  | c :: cs =>
    if isGap c then lexFrom (position.after [c]) cs
    else if c = ';' then
      let comment := c :: cs.takeWhile (· ≠ '\n')
      lexFrom (position.after comment) (cs.dropWhile (· ≠ '\n'))
    else
      let (token, piece) := tokenAt c cs
      let stop := position.after piece
      ⟨token, position, stop⟩ :: lexFrom stop (cs.drop (piece.length - 1))
termination_by text.length
decreasing_by
  all_goals simp only [List.length_cons, List.length_drop]
  · omega
  · exact Nat.lt_succ_of_le (List.dropWhile_suffix _).length_le
  · omega

/-- The lexemes of a text. -/
def lex (source : String) : List Lexeme :=
  lexFrom .start source.toList

end Stubgen.Defs
