import Stubgen.Defs.Reading
import Stubgen.Defs.Record

/-!
# Directives

At the top of a definition text, a form includes another text, defines something, or holds
further forms under a condition. Conditions are not evaluated: what stands under one counts
as if it stood in its place.
-/

namespace Stubgen.Defs

/-- What a form asks for. -/
inductive Directive where
  /-- The definitions of another file. -/
  | include (target : String)
  | define (record : Record)
  /-- The form cannot be understood. -/
  | fault (cause : Cause)

namespace Directive

/-- The directive of a list that is no condition. -/
def ofList (items : List Form) : Directive :=
  if (Form.list items).head? = some "include" then
    match items[1]?.bind Form.text? with
    | some target => .include target
    | none => .fault .includeWithoutName
  else
    match Record.ofForm (.list items) with
    | .ok record => .define record
    | .error cause => .fault cause

/-- Whether a list that begins with this form is a condition. -/
def isCondition (head : Form) : Bool :=
  head.text? = some "ifdef" || head.text? = some "ifndef"

mutual

/-- The directives of a form, in the order of the text. An empty list asks for nothing. A
condition is left out if it is no list. -/
def ofForm : Form → List Directive
  | .list [] => []
  | .list (head :: rest) =>
    if isCondition head then
      match rest with
      | [] => []
      | .list items :: more => ofForm (.list items) ++ ofForms more
      | _ :: more => ofForms more
    else [ofList (head :: rest)]
  | form => [.fault (.notAList form)]

/-- The directives of forms, one after the other. -/
def ofForms : List Form → List Directive
  | [] => []
  | form :: rest => ofForm form ++ ofForms rest

end

/-- The directives of a text, each with the line of the form at the top that holds it. -/
def ofTopLevels (forms : List TopLevel) : List (Nat × Directive) :=
  forms.flatMap fun top => (ofForm top.form).map fun directive => (top.line, directive)

end Directive

end Stubgen.Defs
