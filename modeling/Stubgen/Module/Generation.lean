import Stubgen.Constant.Augmentation
import Stubgen.Module.Building
import Stubgen.Module.Report
import Stubgen.Stub.Location
import Stubgen.Stub.Rendering

/-!
# Generating modules

To generate a module is to build its namespace, to add the constants of the live module and
to write the stub. A module with nothing to show writes nothing. A module that fails is
reported, and the next one is generated all the same.
-/

namespace Stubgen

open Files (Path Tree)

/-- What a run does in the same way for every module. -/
structure Settings where
  style : DocStyle
  /-- How live modules are examined, if they are. -/
  introspector? : Option Introspector

/-- What the modules of a run share. -/
structure Session where
  tree : Tree
  cache : Defs.Cache
  /-- The directories where the interpreter looks for modules. -/
  modulePath : List String
  /-- What there was to say so far. -/
  events : List Event

namespace Session

/-- The session with further events. -/
def say (session : Session) (events : List Event) : Session :=
  { session with events := session.events ++ events }

/-- The session at the beginning of a run. -/
def start (tree : Tree) (modulePath : List String) : Session :=
  ⟨tree, .empty, modulePath, []⟩

/-- Builds the namespace of a module. -/
def build (settings : Settings) (session : Session) (spec : ModuleSpec) :
    Except Error Namespace × Session :=
  let building := spec.build session.tree settings.style session.cache
  (building.result, { session with cache := building.cache }.say building.events)

/-- Adds the constants of the live module to a namespace. -/
def augment (settings : Settings) (session : Session) (module : String) (ns : Namespace) :
    Except Error Namespace × Session :=
  match settings.introspector? with
  | none => (.ok ns, session)
  | some introspector =>
    ((ns.augmentFrom introspector module).map Prod.fst,
      { session with
        modulePath := Introspector.extendPath introspector.searchPaths session.modulePath })

/-- Writes the stub of a namespace and makes the directories that hold it. -/
def write (session : Session) (ns : Namespace) (path : Path) : Except Error Unit × Session :=
  match session.tree.makeDirectories path.directory with
  | (.error e, tree) => (.error (.os e), { session with tree := tree })
  | (.ok (), tree) =>
    let session := { session with tree := tree }.say (Stub.events ns)
    match tree.writeFile path (Stub.render ns).toUTF8 with
    | .error e => (.error (.os e), session)
    | .ok tree => (.ok (), { session with tree := tree })

/-- The report of a namespace whose stub was written. -/
def reportOf (ns : Namespace) (module : String) (path : Path) : Report :=
  ⟨module, some path, ns.classes.size, ns.functions.size, ns.constants.size, none⟩

/-- Writes the stub of a module into a directory, unless there is nothing to show. -/
def emit (session : Session) (module : String) (directory : Path) (ns : Namespace) :
    Except Error Report × Session :=
  if ns.isEmpty then (.ok (.unwritten module), session)
  else
    let path := Stub.location directory module
    let (written, session) := session.write ns path
    (written.map fun _ => reportOf ns module path, session)

/-- Generates a module into a directory. -/
def generate (settings : Settings) (session : Session) (spec : ModuleSpec) (directory : Path) :
    Except Error Report × Session :=
  match session.build settings spec with
  | (.error e, session) => (.error e, session)
  | (.ok ns, session) =>
    match session.augment settings spec.module ns with
    | (.error e, session) => (.error e, session)
    | (.ok ns, session) => session.emit spec.module directory ns

/-- Generates a module and reports its error if it fails. -/
def generateReported (settings : Settings) (session : Session) (spec : ModuleSpec)
    (directory : Path) : Report × Session :=
  match session.generate settings spec directory with
  | (.ok report, session) => (report, session)
  | (.error e, session) =>
    (.failed spec.module e.message, session.say [.failedModule e spec.module])

/-- Generates modules one after the other. -/
def generateAll (settings : Settings) (session : Session) (directory : Path) :
    List ModuleSpec → List Report × Session
  | [] => ([], session)
  | spec :: rest =>
    let (report, session) := session.generateReported settings spec directory
    let (reports, session) := session.generateAll settings directory rest
    (report :: reports, session)

end Session

end Stubgen
