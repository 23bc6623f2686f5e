import Stubgen.Defs.Record
import Stubgen.Files.Tree

/-!
# Errors

The reasons why a module cannot be generated or a run cannot be started. Everything that
only makes a stub poorer is an event instead.
-/

namespace Stubgen

/-- What is wrong with a command line. -/
inductive UsageError where
  /-- An argument that the command does not have. -/
  | unexpectedArgument (shown : String)
  /-- An argument without the value that it needs. -/
  | missingValue (shown : String)
  /-- An argument that may be given only once. -/
  | repeated (shown : String)
  /-- A value given to an argument that takes none. -/
  | unexpectedValue (value shown : String)

/-- The error in words. -/
def UsageError.message : UsageError → String
  | unexpectedArgument shown => "unexpected argument '" ++ shown ++ "' found"
  | missingValue shown => "a value is required for '" ++ shown ++ "' but none was supplied"
  | repeated shown => "the argument '" ++ shown ++ "' cannot be used multiple times"
  | unexpectedValue value shown =>
    "unexpected value '" ++ value ++ "' for '" ++ shown ++ "' found; no more were expected"

/-- The reasons why a module or a run fails. -/
inductive Error where
  /-- A definition text is refused. -/
  | defs (path : Files.Path) (fault : Defs.Fault)
  /-- A definition lacks a field that its kind needs. -/
  | missingField (kind : Defs.Kind) (name field : String)
  /-- A live module cannot be examined. -/
  | introspection (module detail : String)
  /-- A module list names a module by a blank text. -/
  | blankModuleName (list : Files.Path)
  /-- The command line is refused. -/
  | usage (error : UsageError)
  /-- The operating system refuses a request. -/
  | os (error : Files.OsError)
  /-- A module list is malformed. -/
  | malformedList

namespace Error

/-- The error in words. -/
def message : Error → String
  | defs path fault =>
    "Parse error in " ++ path.text ++ ":" ++ toString fault.line ++ ": " ++ fault.cause.message
  | missingField kind name field =>
    "Missing required field `" ++ field ++ "` in " ++ kind.label ++ " definition " ++
      Text.quoted name
  | introspection module detail => "Introspection error: " ++ module ++ ": " ++ detail
  | blankModuleName list => "Config error: empty module name in " ++ list.text
  | usage error => "Config error: error: " ++ error.message
  | os error => "IO error: " ++ error.message
  | malformedList => "JSON error: malformed module list"

/-- The name of the exception that a caller in the interpreter sees. -/
def exceptionName : Error → String
  | defs .. | missingField .. | blankModuleName .. | usage .. | malformedList => "ValueError"
  | introspection .. => "RuntimeError"
  | os .. => "OSError"

end Error

end Stubgen
