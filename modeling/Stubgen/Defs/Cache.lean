import Stubgen.Defs.Reading
import Stubgen.Error
import Stubgen.Text.Utf8

/-!
# The cache of definition files

A cache holds the forms of the definition files that have been read, under the keys of the
files. A file that is reached by several paths is read once. A file that cannot be read
leaves the cache as it is.
-/

namespace Stubgen.Defs

/-- The forms of the files that have been read. -/
structure Cache where
  /-- The forms under the keys of their files. -/
  files : List (Files.Key × List TopLevel)
  /-- How often a file has been read. -/
  reads : Nat

namespace Cache

/-- No file has been read. -/
def empty : Cache :=
  ⟨[], 0⟩

/-- The first forms under a key in a list. -/
def findForms (key : Files.Key) : List (Files.Key × List TopLevel) → Option (List TopLevel)
  | [] => none
  | entry :: rest => if key = entry.1 then some entry.2 else findForms key rest

/-- The forms of the file with a key. -/
def get? (cache : Cache) (key : Files.Key) : Option (List TopLevel) :=
  findForms key cache.files

/-- The forms of the file that a path leads to. The file is read if it has not been before. -/
def load (tree : Files.Tree) (cache : Cache) (path : Files.Path) :
    Except Error (List TopLevel) × Cache :=
  match tree.readFile path with
  | .error e => (.error (.os e), cache)
  | .ok (key, content) =>
    match cache.get? key with
    | some forms => (.ok forms, cache)
    | none =>
      match readForms (Text.decodeLenient content) with
      | .error fault => (.error (.defs path fault), cache)
      | .ok forms => (.ok forms, ⟨(key, forms) :: cache.files, cache.reads + 1⟩)

/-- Whether the file that a path leads to has been read. -/
def contains (tree : Files.Tree) (cache : Cache) (path : Files.Path) : Bool :=
  match tree.readFile path with
  | .error _ => false
  | .ok (key, _) => (cache.get? key).isSome

end Cache

end Stubgen.Defs
