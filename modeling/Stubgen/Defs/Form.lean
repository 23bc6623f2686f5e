import Stubgen.Defs.Token
import Stubgen.Text.Quoted

/-!
# Forms

A form is an atom, a string or a list of forms. Written as tokens, a list stands between
parentheses, and every atom and string is one token.
-/

namespace Stubgen.Defs

/-- A form of a definition text. -/
inductive Form where
  /-- A bare word. -/
  | atom (text : String)
  /-- The text of a string. -/
  | str (text : String)
  /-- A list of forms. -/
  | list (items : List Form)

namespace Form

instance : Inhabited Form := ⟨.list []⟩

/-- The text of an atom or of a string. -/
def text? : Form → Option String
  | atom text => some text
  | str text => some text
  | list _ => none

/-- The items of a list. -/
def items? : Form → Option (List Form)
  | list items => some items
  | _ => none

/-- The text that a list begins with. -/
def head? (form : Form) : Option String :=
  form.items?.bind fun items => items.head?.bind text?

mutual

/-- The form as a message shows it: strings are quoted, and single spaces separate the
items of a list. -/
def render : Form → String
  | atom text => text
  | str text => Text.quoted text
  | list items => "(" ++ renderItems items ++ ")"

/-- The items of a list as a message shows them. -/
def renderItems : List Form → String
  | [] => ""
  | [form] => form.render
  | form :: next :: rest => form.render ++ " " ++ renderItems (next :: rest)

end

mutual

/-- The tokens that a form is written with. -/
def tokens : Form → List Token
  | atom text => [.atom text]
  | str text => [.str text]
  | list items => .opening :: itemTokens items ++ [.closing]

/-- The tokens that forms are written with, one after the other. -/
def itemTokens : List Form → List Token
  | [] => []
  | form :: rest => form.tokens ++ itemTokens rest

end

end Form

end Stubgen.Defs
