import Stubgen.Override.Basic
import Stubgen.Text.Utf8

/-!
# Override files

An override file may include others, whose blocks take the place of the include. Every file
is read at most once, so the reading ends: a step either visits a file for the first time or
leaves less to do.
-/

namespace Stubgen

open Files (Key Path Tree)

/-- The override file that belongs to a definition file. -/
def overridePath (definitions : Path) : Path :=
  definitions.withExtension "override"

/-- Something to do while override files are read. -/
inductive OverrideTask where
  | readFile (path : Path)
  | addBlock (block : OverrideBlock)

/-- How far override files have been read. -/
structure OverrideReading where
  /-- The files that have been visited. -/
  visited : List Key
  /-- The blocks that have been added. -/
  set : OverrideSet
  /-- What there is to say about the blocks. -/
  events : List Event

namespace OverrideReading

/-- Nothing has been read. -/
def start : OverrideReading :=
  ⟨[], .empty, []⟩

/-- What a block in a file of the given directory leaves to do. -/
def tasksOf (directory : Path) : OverrideBlock → List OverrideTask
  | .include names => names.map fun name => .readFile (directory.join ⟨name⟩)
  | block => [.addBlock block]

/-- What the text of a file leaves to do. -/
def tasksOfText (path : Path) (text : String) : List OverrideTask :=
  (OverrideBlock.ofText text).flatMap (tasksOf path.directory)

/-- The reading with one more block. -/
def add (reading : OverrideReading) (block : OverrideBlock) : OverrideReading :=
  { reading with
    set := reading.set.add block
    events := reading.events ++ block.events }

/-- Does what is left to do, in order. A file that has been visited brings nothing. -/
def run (tree : Tree) (reading : OverrideReading) (tasks : List OverrideTask) :
    OverrideReading × Option Error :=
  match tasks with
  | [] => (reading, none)
  | .addBlock block :: rest => (reading.add block).run tree rest
  | .readFile path :: rest =>
    match _hread : tree.readFile path with
    | .error e => (reading, some (.os e))
    | .ok (key, content) =>
      if _hkey : key ∈ reading.visited then reading.run tree rest
      else
        { reading with visited := key :: reading.visited }.run tree
          (tasksOfText path (Text.decodeLenient content) ++ rest)
termination_by (tree.outside reading.visited, tasks.length)
decreasing_by
  · exact Prod.Lex.right _ (by simp)
  · exact Prod.Lex.right _ (by simp)
  · exact Prod.Lex.left _ _ (Tree.outside_cons_lt _hread _hkey)

section

variable {tree : Tree} {reading : OverrideReading} {path : Path} {rest : List OverrideTask}
  {key : Key} {content : ByteArray}

/-- A file that cannot be read ends the reading. -/
theorem run_of_unreadable {e : Files.OsError} (hread : tree.readFile path = .error e) :
    reading.run tree (.readFile path :: rest) = (reading, some (.os e)) := by
  rw [run]
  split
  · next e' h =>
    obtain rfl : e' = e := by simpa [hread] using h.symm
    rfl
  · next h => simp [hread] at h

private theorem run_of_readable (hread : tree.readFile path = .ok (key, content)) :
    reading.run tree (.readFile path :: rest) =
      if key ∈ reading.visited then reading.run tree rest
      else
        { reading with visited := key :: reading.visited }.run tree
          (tasksOfText path (Text.decodeLenient content) ++ rest) := by
  rw [run]
  split
  · next h => simp [hread] at h
  · next h =>
    obtain ⟨rfl, rfl⟩ : _ ∧ _ := by simpa [hread] using h
    split <;> rfl

/-- A file that has been visited is passed over. -/
theorem run_of_visited (hread : tree.readFile path = .ok (key, content))
    (hkey : key ∈ reading.visited) :
    reading.run tree (.readFile path :: rest) = reading.run tree rest := by
  rw [run_of_readable hread, if_pos hkey]

/-- What the text of any other file leaves to do is done before the rest. -/
theorem run_of_new (hread : tree.readFile path = .ok (key, content))
    (hkey : key ∉ reading.visited) :
    reading.run tree (.readFile path :: rest) =
      { reading with visited := key :: reading.visited }.run tree
        (tasksOfText path (Text.decodeLenient content) ++ rest) := by
  rw [run_of_readable hread, if_neg hkey]

end

end OverrideReading

/-- Reads an override file with the files that it includes. -/
def readOverrides (tree : Tree) (path : Path) : OverrideReading × Option Error :=
  OverrideReading.start.run tree [.readFile path]

end Stubgen
