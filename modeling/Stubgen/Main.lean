import Stubgen.Run

/-!
# The program

The program reads the directories that its command line names into a file tree, runs on
this tree, and writes back what the run changed. Live modules are not imported.
-/

namespace Stubgen.Program

open Files (Key Node Tree)

/-- The variable of the environment that names the style of links. -/
def styleVariable : String := "STUBGEN_DOC_STYLE"

/-- The usage of the program. -/
def usage : String :=
  "usage: stubgen [--output-dir DIR] [--codegen-dir DIR] [--modules FILE] [--no-introspect] [DIR]..."

/-- The key of an absolute path. -/
def keyOf (path : String) : Key :=
  (Files.Path.steps ⟨path⟩).filter (· ≠ ".")

/-- The absolute path of a key. -/
def pathOf (key : Key) : String :=
  "/" ++ "/".intercalate key

/-- The tree with a node, and with directories that hold it. -/
def addNode (tree : Tree) (key : Key) (node : Node) : Tree :=
  let holders := (List.range key.length).map fun n => key.take n
  (holders.foldl (fun tree holder => tree.put holder .directory) tree).put key node

/-- Reads a file, or a directory with all that is in it, into the tree. -/
partial def load (tree : Tree) (path : String) : IO Tree := do
  let real ← IO.FS.realPath path
  let key := keyOf real.toString
  if ← real.isDir then
    let mut tree := addNode tree key .directory
    for entry in ← real.readDir do
      tree ← load tree entry.path.toString
    return tree
  else if ← real.pathExists then
    return addNode tree key (.file (← IO.FS.readBinFile real))
  else return tree

/-- The paths that a run may read. -/
def inputs (options : RunOptions) : List Files.Path :=
  options.sources ++ options.outputDirectory?.toList ++ options.codegenDirectory?.toList ++
    options.moduleList?.toList

/-- The tree that a run begins with. -/
def initialTree (options : RunOptions) : IO Tree := do
  let here := keyOf (← IO.FS.realPath ".").toString
  let mut tree := addNode ⟨[], here⟩ here .directory
  for path in inputs options do
    tree ← load tree path.text
  return tree

/-- Whether two nodes are alike. -/
def sameNode : Option Node → Node → Bool
  | some .directory, .directory => true
  | some (.file a), .file b => a == b
  | _, _ => false

/-- Makes the files and directories that a run has changed. -/
def store (before after : Tree) : IO Unit := do
  for (key, node) in after.nodes do
    unless sameNode (before.node? key) node do
      match node with
      | .directory => IO.FS.createDirAll (pathOf key)
      | .file content =>
        IO.FS.createDirAll (pathOf key.dropLast)
        IO.FS.writeBinFile (pathOf key) content

/-- Shows the events and the outcome of a run. -/
def conclude (outcome : Except Error (List Report)) (events : List Event) : IO UInt32 := do
  for event in events do
    IO.eprintln event.line
  match outcome with
  | .error e =>
    IO.eprintln e.message
    return 1
  | .ok reports =>
    for report in reports do
      IO.println report.render
    return 0

/-- Runs with options. -/
def execute (options : RunOptions) : IO UInt32 := do
  let style? ← IO.getEnv styleVariable
  let before ← initialTree options
  let (outcome, session) := options.run ⟨⟨.absent, []⟩, style?⟩ (.start before [])
  store before session.tree
  conclude outcome session.events

end Stubgen.Program

/-- Does what the command line asks for. -/
def main (arguments : List String) : IO UInt32 := do
  match Stubgen.CommandLine.parse ("stubgen" :: arguments) with
  | .error e =>
    IO.eprintln (Stubgen.Error.usage e).message
    return 2
  | .ok none =>
    IO.println Stubgen.Program.usage
    return 0
  | .ok (some options) => Stubgen.Program.execute options
