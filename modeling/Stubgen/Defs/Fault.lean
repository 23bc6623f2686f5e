import Stubgen.Defs.Form

/-!
# What can be wrong with a definition text

A fault is a cause together with the line of the text that shows it.
-/

namespace Stubgen.Defs

/-- The reasons why a definition text is refused. -/
inductive Cause where
  /-- A closing parenthesis without an opening one. -/
  | strayClosing
  /-- A string that cannot be completed. -/
  | invalidToken (source : String)
  /-- An opening parenthesis without a closing one. -/
  | unclosed
  /-- A form at the top that is no list. -/
  | notAList (form : Form)
  /-- A list that does not begin with a text. -/
  | noHead (form : Form)
  /-- A list that begins with a text that announces no definition. -/
  | unknownHead (head : String)
  /-- A definition without a name. -/
  | noName (head : String)
  /-- A part of a definition that is no list beginning with a text. -/
  | malformedEntry (form : Form) (name : String)
  /-- An include that names no file. -/
  | includeWithoutName

/-- A cause and the line where it shows. -/
structure Fault where
  line : Nat
  cause : Cause

/-- The cause in words. -/
def Cause.message : Cause → String
  | strayClosing => "unexpected ')'"
  | invalidToken source => "invalid token " ++ Text.quoted source
  | unclosed => "unclosed '('"
  | notAList form => "expected a list form, found " ++ form.render
  | noHead form => "form without a head symbol: " ++ form.render
  | unknownHead head => "unrecognized top-level form `" ++ head ++ "`"
  | noName head => "`" ++ head ++ "` without a name"
  | malformedEntry form name => "malformed entry " ++ form.render ++ " in `" ++ name ++ "`"
  | includeWithoutName => "include without a file name"

end Stubgen.Defs
