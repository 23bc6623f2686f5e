import Stubgen.CommandLine
import Stubgen.Interpreter.Introspection
import Stubgen.Module.Generation
import Stubgen.ModuleList.BuiltIn

/-!
# Runs

A run generates every module of every source directory. All modules share one cache of
definition files. A module that fails does not end the run; a module list that cannot be
read does.
-/

namespace Stubgen

open Files (Path Tree)

/-- The first source directory that holds the code generator. -/
def findCodegen (tree : Tree) (sources : List Path) : Option Path :=
  sources.find? fun source => tree.isFile ((source.join ⟨"codegen"⟩).join ⟨"__init__.py"⟩)

/-- What a run finds around itself. -/
structure Surroundings where
  interpreter : Interpreter
  /-- The name of the style of links, if one is set. -/
  styleName? : Option String

namespace RunOptions

/-- The directories to be searched for modules first. -/
def searchPaths (options : RunOptions) (tree : Tree) : List String :=
  (options.codegenDirectory?.or (findCodegen tree options.sources)).toList.map Path.text

/-- What the run does in the same way for every module. -/
def settings (options : RunOptions) (surroundings : Surroundings) (tree : Tree) : Settings :=
  { style := (surroundings.styleName?.bind DocStyle.ofName?).getD .pygtk
    introspector? :=
      if options.introspect then
        some (surroundings.interpreter.introspector (options.searchPaths tree))
      else none }

/-- The modules of a source directory. -/
def modules (options : RunOptions) (tree : Tree) (source : Path) :
    Except Error (List ModuleSpec) :=
  match options.moduleList? with
  | some list => ModuleList.read tree list source
  | none => .ok (ModuleList.builtIn source)

/-- Generates the modules of source directories one after the other. -/
def runSources (options : RunOptions) (settings : Settings) (session : Session) :
    List Path → Except Error (List Report) × Session
  | [] => (.ok [], session)
  | source :: rest =>
    match options.modules session.tree source with
    | .error e => (.error e, session)
    | .ok specs =>
      let directory := options.outputDirectory?.getD source
      let (reports, session) := session.generateAll settings directory specs
      let (others, session) := runSources options settings session rest
      (others.map (reports ++ ·), session)

/-- Generates the modules of all source directories. -/
def run (options : RunOptions) (surroundings : Surroundings) (session : Session) :
    Except Error (List Report) × Session :=
  runSources options (options.settings surroundings session.tree) session options.sources

end RunOptions

/-- Does what a command line asks for. -/
def runCommandLine (arguments : List String) (surroundings : Surroundings) (session : Session) :
    Except Error (List Report) × Session :=
  match CommandLine.parse arguments with
  | .error e => (.error (.usage e), session)
  | .ok none => (.ok [], session)
  | .ok (some options) => options.run surroundings session

end Stubgen
