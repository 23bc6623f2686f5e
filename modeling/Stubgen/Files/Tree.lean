import Stubgen.Files.Path

/-!
# File trees

A file tree is a finite collection of directories and files with a working directory. A
path is followed name by name, and it fails for the reasons for which an operating system
refuses a path. What a path leads to is identified by the names from the root, so that
different spellings of one file are recognised.
-/

namespace Stubgen.Files

/-- The reasons why the operating system refuses a request. -/
inductive OsError where
  | notFound
  | alreadyExists
  | notDirectory
  | isDirectory
  /-- The path holds a null character. -/
  | nullInPath
  /-- The file is not encoded in UTF-8. -/
  | invalidText
  deriving DecidableEq

/-- The reason in words. -/
def OsError.message : OsError → String
  | notFound => "No such file or directory (os error 2)"
  | alreadyExists => "File exists (os error 17)"
  | notDirectory => "Not a directory (os error 20)"
  | isDirectory => "Is a directory (os error 21)"
  | nullInPath => "file name contained an unexpected NUL byte"
  | invalidText => "stream did not contain valid UTF-8"

/-- The names from the root to a file or directory. -/
abbrev Key := List String

/-- What a tree holds at a key. -/
inductive Node where
  | directory
  | file (content : ByteArray)

/-- A collection of directories and files. -/
structure Tree where
  /-- Everything but the root, under its key. -/
  nodes : List (Key × Node)
  /-- Where relative paths begin. -/
  workingDirectory : Key

namespace Tree

/-- The first node under a key in a list. -/
def findNode (key : Key) : List (Key × Node) → Option Node
  | [] => none
  | entry :: rest => if key = entry.1 then some entry.2 else findNode key rest

/-- What the tree holds at a key; the root is a directory. -/
def node? (tree : Tree) (key : Key) : Option Node :=
  if key = [] then some .directory else findNode key tree.nodes

/-- The tree with another node at a key. -/
def put (tree : Tree) (key : Key) (node : Node) : Tree :=
  { tree with nodes := (key, node) :: tree.nodes.filter fun entry => entry.1 ≠ key }

/-- Follows names from a place of the tree. -/
def walk (tree : Tree) (here : Key) : List String → Except OsError (Key × Node)
  | [] =>
    match tree.node? here with
    | none => .error .notFound
    | some node => .ok (here, node)
  | name :: rest =>
    match tree.node? here with
    | none => .error .notFound
    | some (.file _) => .error .notDirectory
    | some .directory =>
      if name = "." then tree.walk here rest
      else if name = ".." then tree.walk here.dropLast rest
      else tree.walk (here ++ [name]) rest

/-- Where a path begins. -/
def origin (tree : Tree) (path : Path) : Key :=
  if path.isAbsolute then [] else tree.workingDirectory

/-- What a path leads to, with its key. -/
def locate (tree : Tree) (path : Path) : Except OsError (Key × Node) :=
  if '\x00' ∈ path.text.toList then .error .nullInPath
  else if path.text = "" then .error .notFound
  else tree.walk (tree.origin path) path.steps

/-- The key and the content of the file that a path leads to. -/
def readFile (tree : Tree) (path : Path) : Except OsError (Key × ByteArray) :=
  match tree.locate path with
  | .error e => .error e
  | .ok (_, .directory) => .error .isDirectory
  | .ok (key, .file content) => .ok (key, content)

/-- The number of nodes whose keys are not among the given ones. -/
def outside (tree : Tree) (keys : List Key) : Nat :=
  (tree.nodes.filter fun entry => entry.1 ∉ keys).length

private theorem mem_of_findNode {key : Key} {node : Node} {nodes : List (Key × Node)}
    (h : findNode key nodes = some node) : (key, node) ∈ nodes := by
  induction nodes with
  | nil => simp [findNode] at h
  | cons entry rest ih =>
    unfold findNode at h
    split at h
    · next heq =>
      obtain rfl := Option.some.inj h
      exact List.mem_cons.mpr (.inl (by rw [heq]))
    · exact List.mem_cons_of_mem _ (ih h)

/-- Walking ends at a node of the tree. -/
theorem node?_of_walk {tree : Tree} {here key : Key} {steps : List String} {node : Node}
    (h : tree.walk here steps = .ok (key, node)) : tree.node? key = some node := by
  induction steps generalizing here with
  | nil =>
    unfold walk at h
    split at h
    · simp at h
    · next hnode =>
      obtain ⟨rfl, rfl⟩ := by simpa using h
      exact hnode
  | cons name rest ih =>
    unfold walk at h
    split at h
    · simp at h
    · simp at h
    · split at h
      · exact ih h
      · split at h
        · exact ih h
        · exact ih h

/-- What is read of a path is the file at its key. -/
theorem node?_of_readFile {tree : Tree} {path : Path} {key : Key} {content : ByteArray}
    (h : tree.readFile path = .ok (key, content)) : tree.node? key = some (.file content) := by
  unfold readFile at h
  split at h
  · simp at h
  · simp at h
  · next hlocate =>
    obtain ⟨rfl, rfl⟩ := by simpa using h
    unfold locate at hlocate
    split at hlocate
    · simp at hlocate
    · split at hlocate
      · simp at hlocate
      · exact node?_of_walk hlocate

/-- After a file has been read whose key was not among some keys, fewer nodes lie outside. -/
theorem outside_cons_lt {tree : Tree} {path : Path} {key : Key} {content : ByteArray}
    {keys : List Key} (h : tree.readFile path = .ok (key, content)) (hkey : key ∉ keys) :
    tree.outside (key :: keys) < tree.outside keys := by
  have hnode := node?_of_readFile h
  unfold node? at hnode
  split at hnode
  · simp at hnode
  · have hmem := mem_of_findNode hnode
    unfold outside
    have hsub : (tree.nodes.filter fun entry => entry.1 ∉ key :: keys) =
        (tree.nodes.filter fun entry => entry.1 ∉ keys).filter fun entry => entry.1 ≠ key := by
      rw [List.filter_filter]
      congr 1
      funext entry
      simp [not_or]
    rw [hsub]
    refine List.length_filter_lt_length_iff_exists.mpr ⟨(key, .file content), ?_, by simp⟩
    simp [hmem, hkey]

/-- Whether a path leads to a file. -/
def isFile (tree : Tree) (path : Path) : Bool :=
  match tree.readFile path with
  | .ok _ => true
  | .error _ => false

/-- Whether a path leads to a directory. -/
def isDirectory (tree : Tree) (path : Path) : Bool :=
  match tree.locate path with
  | .ok (_, .directory) => true
  | _ => false

/-- The directory where the last step of a path is taken, and that step. -/
def lastStep (tree : Tree) (path : Path) (steps : List String) :
    Except OsError (Key × Option String) :=
  match tree.walk (tree.origin path) steps.dropLast with
  | .error e => .error e
  | .ok (_, .file _) => .error .notDirectory
  | .ok (key, .directory) => .ok (key, steps.getLast?)

/-- Writes a file, in place of the content that it had. The directory must exist. -/
def writeFile (tree : Tree) (path : Path) (content : ByteArray) : Except OsError Tree :=
  if '\x00' ∈ path.text.toList then .error .nullInPath
  else if path.text = "" then .error .notFound
  else
    match tree.locate path with
    | .ok (_, .directory) => .error .isDirectory
    | .ok (key, .file _) => .ok (tree.put key (.file content))
    | .error .notFound =>
      match tree.lastStep path path.steps with
      | .error e => .error e
      | .ok (_, none) => .error .isDirectory
      | .ok (key, some name) =>
        if name = "." then .error .isDirectory
        else .ok (tree.put (key ++ [name]) (.file content))
    | .error e => .error e

/-- The steps of a path without the slashes at its end. -/
def directorySteps (path : Path) : List String :=
  let text := path.text.toList
  Path.steps ⟨String.ofList (text.reverse.dropWhile (· = '/')).reverse⟩

/-- Makes one directory, whose parent must exist. -/
def makeDirectory (tree : Tree) (path : Path) : Except OsError Tree :=
  if '\x00' ∈ path.text.toList then .error .nullInPath
  else if path.text = "" then .error .notFound
  else
    match tree.lastStep path (directorySteps path) with
    | .error e => .error e
    | .ok (_, none) => .error .alreadyExists
    | .ok (key, some name) =>
      if name = "." ∨ name = ".." then .error .alreadyExists
      else
        match tree.node? (key ++ [name]) with
        | some _ => .error .alreadyExists
        | none => .ok (tree.put (key ++ [name]) .directory)

/-- Takes an outcome of making a directory as good if the directory is there anyway. -/
def acceptExisting (tree : Tree) (path : Path) :
    Except OsError Tree → Except OsError Unit × Tree
  | .ok made => (.ok (), made)
  | .error e => (if tree.isDirectory path then .ok () else .error e, tree)

/-- The paths of the directories that hold a path, the nearest first, as far as there is
one and it is no longer than the path. -/
def ancestors (fuel : Nat) (path : Path) : List Path :=
  match fuel with
  | 0 => []
  | fuel + 1 =>
    match path.parent? with
    | none => []
    | some outer => outer :: ancestors fuel outer

/-- Makes a directory and the directories that hold it, given these, the nearest first.
Directories made on the way stay even if a later one cannot be made. -/
def makeWithin (tree : Tree) (path : Path) : List Path → Except OsError Unit × Tree
  | [] =>
    if path.text = "" then (.ok (), tree)
    else tree.acceptExisting path (tree.makeDirectory path)
  | holder :: rest =>
    if path.text = "" then (.ok (), tree)
    else
      match tree.makeDirectory path with
      | .error .notFound =>
        match tree.makeWithin holder rest with
        | (.ok (), made) => made.acceptExisting path (made.makeDirectory path)
        | (.error e, made) => (.error e, made)
      | outcome => tree.acceptExisting path outcome

/-- Makes a directory together with the directories that hold it. -/
def makeDirectories (tree : Tree) (path : Path) : Except OsError Unit × Tree :=
  tree.makeWithin path (ancestors path.text.length path)

/-- The files of the tree with their keys. -/
def files (tree : Tree) : List (Key × ByteArray) :=
  tree.nodes.filterMap fun entry =>
    match entry.2 with
    | .directory => none
    | .file content => some (entry.1, content)

end Tree

end Stubgen.Files
