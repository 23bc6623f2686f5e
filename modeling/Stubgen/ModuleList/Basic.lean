import Stubgen.Error
import Stubgen.Module.Building
import Stubgen.ModuleList.Json
import Stubgen.Text.Utf8

/-!
# Module lists

A module list is a JSON array. Each entry gives the name of a module and its definition
files, either under the names `module` and `defs` or as an array of the two. Relative
paths start from the source directory.
-/

namespace Stubgen.ModuleList

open Files (Path Tree)

/-- An entry of a module list. -/
structure Entry where
  module : String
  definitions : List String

/-- The text of a value that is a string. -/
def textOf? : JsonValue → Option String
  | .str text? => text?
  | _ => none

/-- The texts of a value that is an array of strings. -/
def textsOf? : JsonValue → Option (List String)
  | .array items => items.mapM textOf?
  | _ => none

/-- The value of a field that occurs exactly once. -/
def only? (key : String) (fields : List (String × JsonValue)) : Option JsonValue :=
  match fields.filter (·.1 = key) with
  | [field] => some field.2
  | _ => none

/-- The fields of an object, if all their names are texts. -/
def named? (fields : List (Option String × JsonValue)) : Option (List (String × JsonValue)) :=
  fields.mapM fun field => field.1.map fun key => (key, field.2)

/-- The entry that a value is. Fields with other names are passed over. -/
def Entry.ofJson? : JsonValue → Option Entry
  | .array [module, definitions] => do
    return ⟨← textOf? module, ← textsOf? definitions⟩
  | .object fields => do
    let fields ← named? fields
    return ⟨← (only? "module" fields).bind textOf?, ← (only? "defs" fields).bind textsOf?⟩
  | _ => none

/-- The entries of a module list. -/
def entries? (text : String) : Option (List Entry) :=
  match parseJson? text with
  | some (.array items) => items.mapM Entry.ofJson?
  | _ => none

/-- A module whose definition files are seen from a source directory. -/
def specOf (directory : Path) (module : String) (definitions : List String) : ModuleSpec :=
  ⟨module, definitions.map fun path => directory.join ⟨path⟩⟩

/-- The modules of entries. A blank name is refused. -/
def specsOf (list directory : Path) (entries : List Entry) : Except Error (List ModuleSpec) :=
  entries.mapM fun entry =>
    if (Text.trim entry.module.toList).isEmpty then .error (.blankModuleName list)
    else .ok (specOf directory entry.module entry.definitions)

/-- Reads a module list. -/
def read (tree : Tree) (list directory : Path) : Except Error (List ModuleSpec) :=
  match tree.readFile list with
  | .error e => .error (.os e)
  | .ok (_, content) =>
    match Text.decodeStrict? content with
    | none => .error (.os .invalidText)
    | some text =>
      match entries? text with
      | none => .error .malformedList
      | some entries => specsOf list directory entries

end Stubgen.ModuleList
