import Stubgen.Error

/-!
# Events of a run

What a run has to say besides its results: warnings about text that was passed over, and
the error of a module that failed.
-/

namespace Stubgen

/-- Something that a run reports while it goes on. -/
inductive Event where
  /-- A wrapper text has no wrapper function. -/
  | noWrapper (function : String)
  /-- A call in a wrapper has no closing parenthesis. -/
  | unterminatedCall (call function : String)
  /-- A call in a wrapper has too few arguments. -/
  | malformedCall (call function : String)
  /-- A wrapper does not parse its arguments. -/
  | noParsing (function : String)
  /-- A wrapper builds its result from an empty format. -/
  | emptyFormat (function : String)
  /-- A wrapper returns nothing that is understood. -/
  | unknownReturn (function : String)
  /-- An override names no function or method. -/
  | unknownOverride (function : String)
  /-- A parameter of a definition has no type or no name. -/
  | malformedParameter (form : Defs.Form) (owner : String)
  /-- An override does not name its function. -/
  | namelessOverride
  /-- An override text includes a file but has no place itself. -/
  | misplacedInclude
  /-- A definition file includes a file that is being expanded. -/
  | cyclicInclude (path : Files.Path)
  /-- A class is used but not defined. -/
  | undefinedClass (nativeName : String)
  /-- A module cannot be generated. -/
  | failedModule (error : Error) (module : String)

namespace Event

/-- How serious an event is. -/
def level : Event → String
  | failedModule .. => "ERROR"
  | _ => "WARN"

/-- The event in words. -/
def text : Event → String
  | noWrapper function => "Could not find _wrap_ function for " ++ function
  | unterminatedCall call function => "Unterminated " ++ call ++ " call for " ++ function
  | malformedCall call function => "Malformed " ++ call ++ " call for " ++ function
  | noParsing function => "Could not find argument parsing code for " ++ function
  | emptyFormat function => "Empty Py_BuildValue spec for " ++ function
  | unknownReturn function => "Unknown return type for " ++ function
  | unknownOverride function => "Could not look up override " ++ function
  | malformedParameter form owner =>
    "Skipping malformed parameter " ++ form.render ++ " of " ++ owner
  | namelessOverride => "override block without a function name"
  | misplacedInclude => "include in override text without a file location"
  | cyclicInclude path => "Skipping cyclic include path=" ++ path.text
  | undefinedClass nativeName => "no class definition found class=" ++ nativeName
  | failedModule error module => "Generation failed: " ++ error.message ++ " module=" ++ module

/-- The event as one line of a log. -/
def line (event : Event) : String :=
  event.level ++ " " ++ event.text

end Event

end Stubgen
