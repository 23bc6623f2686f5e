import Stubgen.Tag

/-!
# Functions and methods

A callable is a function of the module or a method of a class. Its explicit parameters do
not count the receiver, which every method has in front of them.
-/

namespace Stubgen

/-- The implicit first parameter of a method. -/
def receiver : String := "self"

/-- A function or a method of a stub. -/
structure Callable where
  name : String
  isMethod : Bool
  /-- The names and the tags of the parameters, without the receiver. -/
  types : List TypedName
  /-- The parameters as they are written, with their defaults and without the receiver. -/
  explicit : List String
  /-- The tag of the result. -/
  returns : String
  /-- The lines of its documentation. -/
  comments : List String

namespace Callable

/-- The parameters as they are written, with the receiver. -/
def parameters (callable : Callable) : List String :=
  if callable.isMethod then receiver :: callable.explicit else callable.explicit

/-- How many steps the callable is indented. -/
def indent (callable : Callable) : Nat :=
  if callable.isMethod then 1 else 0

/-- Whether a definition gives way to a new one of the same name: its written parameters
are not more than the explicit parameters of the new one and one. -/
def yieldsTo (existing new : Callable) : Bool :=
  existing.parameters.length ≤ new.explicit.length + 1

/-- The callable with other parameters, which have no defaults. -/
def withTypes (callable : Callable) (types : List TypedName) : Callable :=
  { callable with types := types, explicit := types.map (·.name) }

/-- The callable with a recovered signature. -/
def withSignature (callable : Callable) (types : List TypedName) (returns : String) :
    Callable :=
  { callable.withTypes types with returns := returns }

end Callable

end Stubgen
