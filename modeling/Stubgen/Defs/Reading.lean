import Stubgen.Defs.Fault

/-!
# Reading forms

The lexemes of a text are read from left to right. A reading in progress holds the lists
that are still open, the innermost first, and the forms that stand outside every list.
Quote marks are passed over.
-/

namespace Stubgen.Defs

/-- A form outside every list, with the line that it begins on. -/
structure TopLevel where
  line : Nat
  form : Form

/-- A list whose closing parenthesis has not been seen. -/
structure OpenList where
  /-- Where its opening parenthesis stands. -/
  start : Position
  /-- The items seen so far, the latest first. -/
  items : List Form

/-- What has been read of a text. -/
structure Reading where
  /-- The open lists, the innermost first. -/
  pending : List OpenList
  /-- The completed forms outside every list, the latest first. -/
  done : List TopLevel

namespace Reading

/-- Nothing has been read. -/
def empty : Reading :=
  ⟨[], []⟩

/-- Puts a completed form, which begins at the given place, where it belongs. -/
def place (reading : Reading) (start : Position) (form : Form) : Reading :=
  match reading.pending with
  | [] => { reading with done := ⟨start.line, form⟩ :: reading.done }
  | innermost :: outer =>
    { reading with pending := { innermost with items := form :: innermost.items } :: outer }

/-- Reads one lexeme. -/
def step (reading : Reading) (lexeme : Lexeme) : Except Fault Reading :=
  match lexeme.token with
  | .opening => .ok { reading with pending := ⟨lexeme.start, []⟩ :: reading.pending }
  | .closing =>
    match reading.pending with
    | [] => .error ⟨lexeme.start.line, .strayClosing⟩
    | innermost :: outer =>
      .ok (place { reading with pending := outer } innermost.start
        (.list innermost.items.reverse))
  | .quote => .ok reading
  | .str text => .ok (reading.place lexeme.start (.str text))
  | .atom text => .ok (reading.place lexeme.start (.atom text))
  | .invalid source => .error ⟨lexeme.start.line, .invalidToken source⟩

/-- The forms of a text that has been read to its end. -/
def finish (reading : Reading) : Except Fault (List TopLevel) :=
  match reading.pending with
  | [] => .ok reading.done.reverse
  | innermost :: _ => .error ⟨innermost.start.line, .unclosed⟩

end Reading

/-- The forms of a text, or the first fault. -/
def readForms (source : String) : Except Fault (List TopLevel) :=
  (lex source).foldlM Reading.step .empty >>= Reading.finish

end Stubgen.Defs
