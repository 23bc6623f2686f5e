import Stubgen.Constant.Basic
import Stubgen.Error
import Stubgen.Namespace.Basic

/-!
# Constants of a live module

A live module is examined for the constants that it exports. A namespace takes up those
whose names it does not define yet, as lines `name = literal`.
-/

namespace Stubgen

/-- A way to examine live modules. -/
structure Introspector where
  /-- The directories to be searched for modules first. -/
  searchPaths : List String
  /-- The constants of a module in the order of its attributes, or `none` if it cannot be
  imported. -/
  examine : String → Except Error (Option (List (String × Constant)))

namespace Introspector

/-- An introspector that imports nothing. -/
def none : Introspector :=
  ⟨[], fun _ => .ok .none⟩

/-- The directories where the interpreter looks for modules, with the search paths that
are not yet among them in front. -/
def extendPath (searchPaths path : List String) : List String :=
  searchPaths.foldr (fun directory path => if directory ∈ path then path else directory :: path)
    path

end Introspector

namespace Constant

/-- The line of a constant. -/
def line (isKnown : String → Bool) (name : String) (constant : Constant) : String :=
  name ++ " = " ++ constant.render isKnown

/-- Whether a name is reserved for the interpreter. -/
def isReserved (name : String) : Bool :=
  ['_', '_'].isPrefixOf name.toList

end Constant

namespace Namespace

/-- The constants that a namespace takes up: neither reserved names nor names that it
defines already. -/
def missingConstants (ns : Namespace) (constants : List (String × Constant)) :
    List (String × Constant) :=
  constants.filter fun entry => !(Constant.isReserved entry.1 || ns.hasDisplayName entry.1)

/-- Takes up constants of the live module. What counts as known is what the namespace
defined beforehand. -/
def augment (ns : Namespace) (constants : List (String × Constant)) : Namespace :=
  (ns.missingConstants constants).foldl
    (fun extended entry =>
      extended.addConstant entry.1 (entry.2.line ns.hasDisplayName entry.1))
    ns

/-- Examines a module and takes up its constants. Tells how many were taken up, a name
that is listed again counting again. -/
def augmentFrom (ns : Namespace) (introspector : Introspector) (module : String) :
    Except Error (Namespace × Nat) :=
  match introspector.examine module with
  | .error e => .error e
  | .ok .none => .ok (ns, 0)
  | .ok (some constants) =>
    .ok (ns.augment constants, (ns.missingConstants constants).length)

end Namespace

end Stubgen
