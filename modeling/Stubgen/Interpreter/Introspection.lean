import Stubgen.Constant.Augmentation
import Stubgen.Interpreter.Basic

/-!
# Examining live modules

The constants of a live module are its attributes whose values are numbers, truth values,
texts or members of enumerations and flags. The attributes of a module form a dictionary
that begins with those that every module has.
-/

namespace Stubgen

/-- Whether an integer fits into 64 bits with a sign. -/
def isWord (n : Int) : Bool :=
  Int64.minValue.toInt ≤ n && n ≤ Int64.maxValue.toInt

/-- An integer that fits into 64 bits with a sign. -/
def wordOf? (n : Int) : Option Int :=
  if isWord n then some n else none

namespace AttributeValue

/-- The constant that a value is, if it is one. Without base types, a member is a plain
integer. -/
def constant? (hasBaseTypes : Bool) : AttributeValue → Option Constant
  | .int value => (wordOf? value).map .int
  | .bool value => some (.bool value)
  | .float bits => some (.float bits)
  | .str value => some (.str value)
  | .member base type value? =>
    if hasBaseTypes then
      match base with
      | .enum => some (.enumMember type (value?.bind wordOf?))
      | .flags | .both => some (.flag type (value?.bind wordOf?))
    else (value?.bind wordOf?).map .int
  | .other => none

end AttributeValue

/-- The attributes that a module has before its own. -/
def standardAttributes (module : String) : Ledger AttributeValue :=
  ⟨[("__name__", .str module), ("__doc__", .other), ("__package__", .other),
    ("__loader__", .other), ("__spec__", .other)]⟩

/-- The attributes of a module under their names. -/
def attributesOf (module : String) (attributes : List Attribute) : Ledger AttributeValue :=
  attributes.foldl
    (fun ledger item =>
      match item.name? with
      | none => ledger
      | some name => ledger.put name item.value)
    (standardAttributes module)

/-- The constants among the attributes of a module. -/
def constantsOf (hasBaseTypes : Bool) (module : String) (attributes : List Attribute) :
    List (String × Constant) :=
  (attributesOf module attributes).entries.filterMap fun entry =>
    (entry.2.constant? hasBaseTypes).map fun constant => (entry.1, constant)

namespace Interpreter

/-- The exceptions that say that a module cannot be imported. -/
def importExceptions : List String :=
  ["ImportError", "ModuleNotFoundError"]

/-- The constants of a module. -/
def examine (interpreter : Interpreter) (module : String) :
    Except Error (Option (List (String × Constant))) :=
  match interpreter.baseTypes with
  | .broken =>
    .error (.introspection module
      "AttributeError: module 'gobject' has no attribute 'GEnum'")
  | baseTypes =>
    match valueAt? module interpreter.modules with
    | none => .ok none
    | some (.succeeds attributes) =>
      .ok (some (constantsOf (baseTypes = .available) module attributes))
    | some (.raises exception message) =>
      if exception ∈ importExceptions then .ok none
      else
        .error (.introspection module
          (exception ++ ": " ++ shownMessage exception message))

/-- The introspector that imports modules into the interpreter. -/
def introspector (interpreter : Interpreter) (searchPaths : List String) : Introspector :=
  ⟨searchPaths, interpreter.examine⟩

end Interpreter

end Stubgen
