import Stubgen.DocLink
import Stubgen.Event
import Stubgen.Namespace.Basic

/-!
# The text of a stub

A stub shows every class with its methods, every function and every constant of a
namespace, in the order of their keys. A callable shows its documentation and returns a
value of the right type.
-/

namespace Stubgen.Stub

/-- The blanks before a line that is indented by a number of steps. -/
def indentation (steps : Nat) : String :=
  String.ofList (List.replicate (2 * steps) ' ')

/-- The three double quotes around a documentation block. -/
def docQuotes : String := "\"\"\""

/-- A documentation block. -/
def docBlock (pad : String) (lines : List String) : String :=
  pad ++ docQuotes ++ ("\n" ++ pad).intercalate lines ++ docQuotes

/-- The documentation of a parameter. A tag that does not spell its type out is shown, too. -/
def parameterLine (shown : String → String) (parameter : TypedName) : String :=
  "     " ++ parameter.name ++ " -- " ++ Tag.describe shown parameter.tag ++
    if Tag.isExplicit parameter.tag then "" else " (C type: " ++ parameter.tag ++ ")"

/-- The lines of the documentation of a callable. -/
def docLines (shown : String → String) (callable : Callable) : List String :=
  (if callable.types.isEmpty then []
    else "Parameter types:" :: callable.types.map (parameterLine shown)) ++
    callable.comments

/-- The statement that makes up the body of a callable. -/
def body (shown : String → String) (callable : Callable) : String :=
  if callable.name = constructorName then "return " ++ receiver
  else
    match Tag.placeholder shown callable.returns with
    | .value source => "return " ++ source
    | .nothing => "pass"

/-- The text of a function or of a method. -/
def renderCallable (shown : String → String) (callable : Callable) : String :=
  let pad := indentation (callable.indent + 1)
  let lines := docLines shown callable
  indentation callable.indent ++ "def " ++ callable.name ++ "(" ++
    ", ".intercalate callable.parameters ++ "):\n" ++
    (if lines.isEmpty then "" else docBlock pad lines ++ "\n") ++
    pad ++ body shown callable

/-- The constructor of a class that defines none. -/
def defaultConstructor (nativeName : String) : Callable :=
  { name := constructorName
    isMethod := true
    types := []
    explicit := []
    returns := nativeName
    comments := ["Constructor"] }

/-- The methods that a class shows: its own and a constructor in any case. -/
def shownMethods (c : Class) : Table Callable :=
  if c.methods.contains constructorName then c.methods
  else c.methods.insert constructorName (defaultConstructor c.nativeName)

/-- The names of the parents that the namespace knows. -/
def bases (ns : Namespace) (c : Class) : List String :=
  c.definition.parents.filterMap ns.displayName?

/-- The first line of a class. -/
def classHeader (ns : Namespace) (c : Class) : String :=
  match bases ns c with
  | [] => "class " ++ c.name ++ ":"
  | names => "class " ++ c.name ++ "(" ++ ", ".intercalate names ++ "):"

/-- The text of a class. -/
def renderClass (ns : Namespace) (c : Class) : String :=
  let comments := c.definition.comments
  classHeader ns c ++
    (if comments.isEmpty then "" else "\n" ++ docBlock (indentation 1) comments) ++
    String.join ((shownMethods c).values.map fun method =>
      "\n\n" ++ renderCallable ns.shownName method)

/-- The texts of everything in a namespace under their keys: classes, functions and
constants. -/
def entries (ns : Namespace) : List (String × String) :=
  ns.classes.entries.map (fun entry => (entry.1, renderClass ns entry.2)) ++
    ns.functions.entries.map (fun entry => (entry.1, renderCallable ns.shownName entry.2)) ++
    ns.constants.entries

/-- Entries in the order of their keys. Entries of one key stay in their order. -/
def sortEntries (entries : List (String × String)) : List (String × String) :=
  entries.mergeSort fun a b => a.1 ≤ b.1

/-- Whether a text begins, after blanks, with the word of a class or of a callable. -/
def isBlock (text : String) : Bool :=
  let head := Text.trimStart text.toList
  "class".toList.isPrefixOf head || "def".toList.isPrefixOf head

/-- An entry as it is written: an empty line goes before a block, and a line feed ends it. -/
def chunk (text : String) : String :=
  (if isBlock text then "\n" else "") ++ text ++ "\n"

/-- The text of the stub of a namespace. -/
def render (ns : Namespace) : String :=
  String.join ((sortEntries (entries ns)).map fun entry => chunk entry.2)

/-- What there is to say about the text of a class. -/
def classEvents (c : Class) : List Event :=
  if c.confirmed then [] else [.undefinedClass c.nativeName]

/-- What there is to say about the text of a namespace. -/
def events (ns : Namespace) : List Event :=
  ns.classes.values.flatMap classEvents

end Stubgen.Stub
