import Stubgen.Event
import Stubgen.Wrapper.Expression

/-!
# Signatures recovered from wrappers

The parameters of a wrapped function are those of the call that parses the arguments, and
its result is that of the first `return` whose expression is understood.
-/

namespace Stubgen.Wrapper

/-- The mark in the name of a wrapper function. -/
def marker : List Char := "_wrap_".toList

/-- A call that parses the arguments of a wrapper. -/
structure ParsingCall where
  /-- The name of the call with its opening parenthesis. -/
  name : String
  /-- The place of the format among the arguments. -/
  formatAt : Nat
  /-- The place of the first variable among the arguments. -/
  namesFrom : Nat

/-- The call that also parses keyword arguments. -/
def keywordCall : ParsingCall := ⟨"PyArg_ParseTupleAndKeywords(", 2, 4⟩

/-- The call that parses positional arguments. -/
def positionalCall : ParsingCall := ⟨"PyArg_ParseTuple(", 1, 2⟩

/-- What a wrapper shows of a call. -/
inductive CallSite where
  | absent
  | unterminated
  /-- The call has too few arguments. -/
  | malformed
  | found (parameters : List TypedName)

/-- The part of a format before the name or the message that may follow it. -/
def formatSection (format : List Char) : List Char :=
  if ':' ∈ format then Text.upTo ':' format else Text.upTo ';' format

/-- The name of the variable whose address is an argument. -/
def variableName (argument : List Char) : String :=
  String.ofList (Text.trim (Text.dropStart ['&'] argument))

/-- The parameters told by the arguments of a parsing call. -/
def ParsingCall.read (call : ParsingCall) (arguments : List Char) : CallSite :=
  let parts := (Text.splitAt ',' arguments).map Text.trim
  if parts.length < call.namesFrom then .malformed
  else
    let format := formatSection (unquote (parts.getD call.formatAt []))
    .found (takenTypes ((parts.drop call.namesFrom).map variableName) format)

/-- The text from the wrapper function on: what follows the first marker. -/
def wrapperText (code : List Char) : List Char :=
  match Text.cutFirst? marker code with
  | some (_, after) => after
  | none => code

/-- What a wrapper shows of a parsing call. -/
def ParsingCall.site (call : ParsingCall) (code : List Char) : CallSite :=
  match Text.cutFirst? call.name.toList (wrapperText code) with
  | none => .absent
  | some (_, after) =>
    match untilClosed 0 after with
    | none => .unterminated
    | some arguments => call.read arguments

/-- The parameters of a wrapper, told by the call that also parses keyword arguments if it
has one. -/
def parameters? (code : List Char) : Option (List TypedName) :=
  match keywordCall.site code with
  | .found parameters => some parameters
  | _ =>
    match positionalCall.site code with
    | .found parameters => some parameters
    | _ => none

/-- What there is to say about a parsing call of a wrapper. -/
def ParsingCall.events (call : ParsingCall) (function : String) : CallSite → List Event
  | .unterminated => [.unterminatedCall call.name function]
  | .malformed => [.malformedCall call.name function]
  | .absent | .found _ => []

/-- What there is to say about a wrapper that lacks a wrapper function. -/
def markerEvents (function : String) (code : List Char) : List Event :=
  if Text.occursIn marker code then [] else [.noWrapper function]

/-- What there is to say about the parameters of a wrapper. -/
def parameterEvents (function : String) (code : List Char) : List Event :=
  markerEvents function code ++
    match keywordCall.site code with
    | .found _ => []
    | keywords =>
      keywordCall.events function keywords ++
        match positionalCall.site code with
        | .found _ => []
        | positional => positionalCall.events function positional ++ [.noParsing function]

/-- The word before a returned expression. -/
def returnWord : List Char := "return ".toList

/-- The type of an expression that is returned after the text `before`. -/
def returned? (code before expr : List Char) : Option Result :=
  (resolveWithin code (Text.trim expr) before.dropLast).bind classify?

/-- The type of the first return in `rest` that is understood, where `rest` follows
`before` in the code. A return that is not ended by a semicolon ends the search. -/
def firstReturn? (code before rest : List Char) : Option Result :=
  match _hcut : Text.cutFirst? returnWord rest with
  | none => none
  | some (skipped, after) =>
    match Text.upTo? ';' after with
    | none => none
    | some expr =>
      match returned? code (before ++ skipped) expr with
      | some result => some result
      | none => firstReturn? code (before ++ skipped ++ returnWord) after
termination_by rest.length
decreasing_by
  rw [← Text.append_of_cutFirst? _hcut]
  simp only [List.length_append]
  have : returnWord.length = 7 := rfl
  omega

/-- The type of the result of a wrapper. The search begins after the last marker. -/
def result? (code : List Char) : Option Result :=
  match Text.cutLast? marker code with
  | some (before, after) => firstReturn? code (before ++ marker) after
  | none => firstReturn? code [] code

/-- What there is to say about the result of a wrapper. -/
def resultEvents (function : String) (code : List Char) : List Event :=
  markerEvents function code ++
    match result? code with
    | some (.tag _) => []
    | some .emptyFormat => [.emptyFormat function]
    | none => [.unknownReturn function]

end Stubgen.Wrapper
