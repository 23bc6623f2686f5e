import Stubgen.Text.Measure
import Stubgen.Text.Search

/-!
# Paths

A path is kept as the text that names it, because messages and reports show that text. Its
components are the names between slashes; empty names do not count, and a dot counts only
at the beginning of a relative path.
-/

namespace Stubgen.Files

/-- A path of a file or directory. -/
structure Path where
  /-- The path as it is written. -/
  text : String
  deriving DecidableEq

namespace Path

/-- The path that begins with a slash. -/
def isAbsolute (path : Path) : Bool :=
  path.text.toList.head? = some '/'

/-- The path of `target` as seen from the directory `path`: an absolute target stands for
itself. -/
def join (path target : Path) : Path :=
  if target.isAbsolute then target
  else if path.text.toList = [] ∨ path.text.toList.getLast? = some '/' then
    ⟨path.text ++ target.text⟩
  else ⟨path.text ++ "/" ++ target.text⟩

/-- The leading slash of an absolute path, or the leading dot of a relative one. -/
def anchor : List Char → List Char
  | '/' :: _ => ['/']
  | ['.'] => ['.']
  | '.' :: '/' :: _ => ['.']
  | _ => []

/-- Removes empty names and dots from the end of a reversed text of names. -/
def trimNames : List Char → List Char
  | [] => []
  | '/' :: rest => trimNames rest
  | ['.'] => []
  | '.' :: '/' :: rest => trimNames rest
  | c :: rest => c :: rest

/-- The names of a path after its anchor, reversed, without empty names and dots at the
end. -/
def namesReversed (path : Path) : List Char :=
  trimNames (path.text.toList.drop (anchor path.text.toList).length).reverse

/-- The directory that holds what the path names. -/
def parent? (path : Path) : Option Path :=
  let start := anchor path.text.toList
  match path.namesReversed with
  | [] => if start = ['.'] then some ⟨""⟩ else none
  | names =>
    let outer := trimNames ((names.dropWhile (· ≠ '/')).drop 1)
    some ⟨String.ofList (start ++ outer.reverse)⟩

/-- The directory of a file; the working directory if the path does not tell. -/
def directory (path : Path) : Path :=
  path.parent?.getD ⟨""⟩

/-- The last name of a path, unless it is a dot or a pair of dots. -/
def fileName? (path : Path) : Option (List Char) :=
  match path.namesReversed with
  | [] => none
  | names =>
    let name := (names.takeWhile (· ≠ '/')).reverse
    if name = ['.', '.'] then none else some name

/-- A file name as its stem and what follows its last dot. A dot at the very beginning
belongs to the stem. -/
def splitName (name : List Char) : List Char × Option (List Char) :=
  match Text.cutLast? ['.'] name with
  | none => (name, none)
  | some ([], _) => (name, none)
  | some (stem, extension) => (stem, some extension)

/-- Replaces what follows the stem of the file name by a dot and `extension`. A path
without a file name is left alone. -/
def setExtension (path : Path) (extension : String) : Path :=
  match path.fileName? with
  | none => path
  | some name =>
    let whole := anchor path.text.toList ++ path.namesReversed.reverse
    let stem := whole.take (whole.length - (name.length - (splitName name).1.length))
    ⟨String.ofList stem ++ "." ++ extension⟩

/-- The path without as many bytes at its end as the extension of its file name has. A
character that would be cut in two is kept. -/
def dropExtensionBytes (path : Path) : Path :=
  match path.fileName?.bind fun name => (splitName name).2 with
  | none => path
  | some extension =>
    let reversed := path.text.toList.reverse
    let dropped := Text.takeBytes (Text.byteLength extension) reversed
    ⟨String.ofList (reversed.drop dropped.length).reverse⟩

/-- The path with another extension. -/
def withExtension (path : Path) (extension : String) : Path :=
  path.dropExtensionBytes.setExtension extension

/-- The names to follow from the root or from the working directory. A slash at the end
asks for a directory, as a dot does. -/
def steps (path : Path) : List String :=
  let names := (Text.splitAt '/' path.text.toList).filter (· ≠ [])
  let names := if path.text.toList.getLast? = some '/' then names ++ [['.']] else names
  names.map String.ofList

end Path

end Stubgen.Files
