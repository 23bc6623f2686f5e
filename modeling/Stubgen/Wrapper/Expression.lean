import Stubgen.Text.Blank
import Stubgen.Text.Measure
import Stubgen.Wrapper.Format

/-!
# Expressions of a wrapper

A wrapper is text of a native language, and it is scanned rather than parsed. A variable is
traced back through the assignments before its use to a call or to the empty result. The
first words of a call tell the type of what it makes.
-/

namespace Stubgen.Wrapper

/-- The text before the parenthesis that closes more than were opened, when `depth` are
open. -/
def untilClosed (depth : Nat) : List Char → Option (List Char)
  | [] => none
  | c :: cs =>
    if c = '(' then (untilClosed (depth + 1) cs).map (c :: ·)
    else if c = ')' then
      match depth with
      | 0 => some []
      | depth + 1 => (untilClosed depth cs).map (c :: ·)
    else (untilClosed depth cs).map (c :: ·)

/-- The text between the first opening parenthesis and the one that closes it. -/
def callArguments? (text : List Char) : Option (List Char) :=
  match Text.cutFirst? ['('] text with
  | none => none
  | some (_, after) => untilClosed 0 after

/-- The text inside double quotes, or the text itself; blanks around it do not count. -/
def unquote (text : List Char) : List Char :=
  match Text.trim text with
  | '"' :: inner =>
    if inner.getLast? = some '"' then inner.dropLast else '"' :: inner
  | bare => bare

/-- The name that stands for the empty result. -/
def emptyResult : List Char := "Py_None".toList

/-- Follows assignments backwards from an expression until it is a call or the empty
result. The last assignment to the expression within `window`, a beginning of `code`, tells
its value; the search for that value's own assignment goes on before it. -/
def resolveWithin (code expr window : List Char) : Option (List Char) :=
  if '(' ∈ expr ∨ expr = emptyResult then some expr
  else if expr = [] then none
  else
    match _hcut : Text.cutLast? (expr ++ " = ".toList) window with
    | none => none
    | some (before, _) =>
      match Text.upTo? ';' (code.drop (before.length + (expr ++ " = ".toList).length)) with
      | none => none
      | some value => resolveWithin code (Text.trim value) before.dropLast
termination_by window.length
decreasing_by
  rw [← Text.append_of_cutLast? _hcut]
  simp only [List.length_append, List.length_dropLast]
  have : (" = ".toList : List Char).length = 3 := rfl
  omega

/-- What an expression at a byte position of a wrapper stands for. -/
def resolve? (code expr : List Char) (offset : Nat) : Option (List Char) :=
  resolveWithin code (Text.trim expr) (Text.takeBytes offset code)

/-- The beginnings of calls that make a value of a known type, with its tag. -/
def makers : List (String × String) :=
  [("PyInt", "int"), ("PyLong", "int"), ("PyString", "char*"), ("PyUnicode", "!unicode"),
   ("PyFloat", "!float"), ("PyBool", "gboolean"), ("PyObject_Is", "gboolean"),
   ("PyTuple", "tuple"), ("PyList", "list"), ("PyDict", "dict"),
   ("pyg_value_as_pyobject", "!object"), ("pyg_object_new", "!object")]

/-- Whether an expression chooses between the two truth values: its words end in a question
mark, one truth value, a colon and a word that holds a truth value. -/
def isTruthChoice (expr : List Char) : Bool :=
  let no := "Py_False".toList
  let yes := "Py_True".toList
  match (Text.words expr).reverse with
  | last :: colon :: choice :: mark :: _ :: _ =>
    (Text.occursIn no last || Text.occursIn yes last) && colon = [':'] &&
      (choice = yes || choice = no) && mark = ['?']
  | _ => false

/-- The type that was recovered for a result. -/
inductive Result where
  | tag (tag : String)
  /-- The result is put together from an empty format. -/
  | emptyFormat
  deriving DecidableEq

/-- The tag of a recovered type. -/
def Result.toTag : Result → String
  | .tag text => text
  | .emptyFormat => Tag.unspecified

/-- The type of a value that is put together by a format. -/
def builtResult (format : List Char) : Result :=
  match builtTypes format with
  | [] => .emptyFormat
  | [type] => .tag ("!" ++ type)
  | types => .tag ("!tuple(" ++ ", ".intercalate types ++ ")")

/-- The first argument of a call. -/
def firstArgument? (call : List Char) : Option (List Char) :=
  (callArguments? call).map (Text.upTo ',')

/-- The type of a resolved expression, if its form is understood. -/
def classify? (expr : List Char) : Option Result :=
  let expr := Text.trim expr
  let beginsWith (start : String) := start.toList.isPrefixOf expr
  if expr = emptyResult then some (.tag Tag.nothing)
  else
    match makers.find? fun maker => beginsWith maker.1 with
    | some maker => some (.tag maker.2)
    | none =>
      if beginsWith "pyg_boxed_new(" then
        (firstArgument? expr).map fun type =>
          .tag ("!object (GTYPE=" ++ String.ofList (Text.trim type) ++ ")")
      else if isTruthChoice expr then some (.tag "gboolean")
      else if beginsWith "Py_BuildValue(" then
        (firstArgument? expr).map fun format => builtResult (unquote format)
      else none

end Stubgen.Wrapper
