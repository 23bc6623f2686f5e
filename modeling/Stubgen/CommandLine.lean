import Stubgen.Error
import Stubgen.Files.Path

/-!
# The command line

Arguments are source directories, three options with a value, and flags. An option is not
looked at before the next option or flag is, or before the end, because its value may still
come; an argument that is not known is refused at once. After a double hyphen every argument
is a source directory.
-/

namespace Stubgen

/-- What a run is asked to do. -/
structure RunOptions where
  sources : List Files.Path
  /-- Where stubs are written; beside the sources if it is not given. -/
  outputDirectory? : Option Files.Path
  codegenDirectory? : Option Files.Path
  /-- The module list; the built-in one if it is not given. -/
  moduleList? : Option Files.Path
  /-- Whether live modules are examined. -/
  introspect : Bool

namespace CommandLine

/-- The options that take a value. -/
inductive ValueOption where
  | outputDirectory
  | codegenDirectory
  | moduleList
  deriving DecidableEq

/-- The flags. -/
inductive Flag where
  | noIntrospect
  | help
  | version
  deriving DecidableEq

/-- The option with a name. -/
def ValueOption.ofName? : String → Option ValueOption
  | "output-dir" => some outputDirectory
  | "codegen-dir" => some codegenDirectory
  | "modules" => some moduleList
  | _ => none

/-- The option as messages show it. -/
def ValueOption.shown : ValueOption → String
  | outputDirectory => "--output-dir <DIR>"
  | codegenDirectory => "--codegen-dir <DIR>"
  | moduleList => "--modules <FILE>"

/-- The flag with a name. -/
def Flag.ofName? : String → Option Flag
  | "no-introspect" => some noIntrospect
  | "help" => some help
  | "version" => some version
  | _ => none

/-- The flag with a letter. -/
def Flag.ofLetter? : Char → Option Flag
  | 'h' => some help
  | 'V' => some version
  | _ => none

/-- The flag as messages show it. -/
def Flag.shown : Flag → String
  | noIntrospect => "--no-introspect"
  | help => "--help"
  | version => "--version"

/-- The source directories as messages show them. -/
def sourcesShown : String := "[DIR]..."

/-- Arguments that have been read but not looked at. -/
inductive Pending where
  | nothing
  | option (option : ValueOption) (value? : Option String)
  | sources (values : List String)

/-- How far a command line has been read. -/
structure Progress where
  options : RunOptions
  pending : Pending

/-- Nothing has been read. -/
def start : Progress :=
  ⟨⟨[], none, none, none, true⟩, .nothing⟩

/-- Sets the value of an option that has none yet. -/
def setOnce (option : ValueOption) (value : String) (old? : Option Files.Path)
    (set : Files.Path → RunOptions) : Except UsageError RunOptions :=
  match old? with
  | some _ => .error (.repeated option.shown)
  | none => if value = "" then .error (.missingValue option.shown) else .ok (set ⟨value⟩)

/-- Sets an option to a value. -/
def setOption (options : RunOptions) (option : ValueOption) (value : String) :
    Except UsageError RunOptions :=
  match option with
  | .outputDirectory =>
    setOnce option value options.outputDirectory? fun path =>
      { options with outputDirectory? := some path }
  | .codegenDirectory =>
    setOnce option value options.codegenDirectory? fun path =>
      { options with codegenDirectory? := some path }
  | .moduleList =>
    setOnce option value options.moduleList? fun path =>
      { options with moduleList? := some path }

/-- Looks at the pending arguments. -/
def resolve (progress : Progress) : Except UsageError RunOptions :=
  match progress.pending with
  | .nothing => .ok progress.options
  | .option option none => .error (.missingValue option.shown)
  | .option option (some value) => setOption progress.options option value
  | .sources values =>
    if "" ∈ values then .error (.missingValue sourcesShown)
    else
      .ok { progress.options with
        sources := progress.options.sources ++ values.map fun value => ⟨value⟩ }

/-- Reads a source directory. -/
def addSource (progress : Progress) (value : String) : Except UsageError Progress :=
  match progress.pending with
  | .sources values => .ok { progress with pending := .sources (values ++ [value]) }
  | _ => (resolve progress).map fun options => ⟨options, .sources [value]⟩

/-- Reads an argument that is neither an option nor a flag. -/
def addValue (progress : Progress) (value : String) : Except UsageError Progress :=
  match progress.pending with
  | .option option none => .ok { progress with pending := .option option (some value) }
  | _ => addSource progress value

/-- Reads an option, with its value if it is attached. -/
def addOption (progress : Progress) (option : ValueOption) (attached? : Option String) :
    Except UsageError Progress :=
  match resolve progress with
  | .error e => .error e
  | .ok options =>
    match attached? with
    | none => .ok ⟨options, .option option none⟩
    | some value => (setOption options option value).map fun options => ⟨options, .nothing⟩

/-- Reads a flag. A flag that asks for a text to be shown ends the reading. -/
def addFlag (progress : Progress) (flag : Flag) : Except UsageError (Option Progress) :=
  match resolve progress with
  | .error e => .error e
  | .ok options =>
    match flag with
    | .noIntrospect =>
      if options.introspect then
        .ok (some ⟨{ options with introspect := false }, .nothing⟩)
      else .error (.repeated flag.shown)
    | .help | .version => .ok none

/-- The name of a long argument and the value attached to it. -/
def splitLong (text : List Char) : String × Option String :=
  match Text.cutFirst? ['='] text with
  | none => (String.ofList text, none)
  | some (name, value) => (String.ofList name, some (String.ofList value))

/-- Reads an argument that begins with two hyphens. -/
def addLong (progress : Progress) (text : List Char) : Except UsageError (Option Progress) :=
  let (name, attached?) := splitLong text
  match ValueOption.ofName? name, Flag.ofName? name with
  | some option, _ => (addOption progress option attached?).map some
  | none, some flag =>
    match attached? with
    | some value => .error (.unexpectedValue value flag.shown)
    | none => addFlag progress flag
  | none, none => .error (.unexpectedArgument ("--" ++ name))

/-- Reads an argument that begins with one hyphen and a letter. -/
def addShort (progress : Progress) (letter : Char) : Except UsageError (Option Progress) :=
  match Flag.ofLetter? letter with
  | some flag => addFlag progress flag
  | none => .error (.unexpectedArgument (String.ofList ['-', letter]))

/-- Reads an argument before any double hyphen. -/
def addArgument (progress : Progress) (argument : String) :
    Except UsageError (Option Progress) :=
  match argument.toList with
  | '-' :: '-' :: text => addLong progress text
  | '-' :: letter :: _ => addShort progress letter
  | _ => (addValue progress argument).map some

/-- Reads the arguments after a double hyphen. -/
def readSources (progress : Progress) : List String → Except UsageError RunOptions
  | [] => resolve progress
  | argument :: rest =>
    match addSource progress argument with
    | .error e => .error e
    | .ok progress => readSources progress rest

/-- Reads arguments. -/
def readArguments (progress : Progress) :
    List String → Except UsageError (Option RunOptions)
  | [] => (resolve progress).map some
  | argument :: rest =>
    if argument = "--" then (readSources progress rest).map some
    else
      match addArgument progress argument with
      | .error e => .error e
      | .ok none => .ok none
      | .ok (some progress) => readArguments progress rest

/-- What a command line asks for, the name of the program first; `none` if a text is to be
shown and nothing is to be done. -/
def parse (arguments : List String) : Except UsageError (Option RunOptions) :=
  readArguments start (arguments.drop 1)

end CommandLine

end Stubgen
