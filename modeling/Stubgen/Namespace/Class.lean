import Stubgen.Namespace.Callable
import Stubgen.Table

/-!
# Classes

A class is known by its native name. It is provisional as long as only its methods are
known, and confirmed once its own definition has been seen.
-/

namespace Stubgen

/-- What the definition of a class says about it. -/
structure ClassDefinition where
  /-- The name under which the class appears in the stub. -/
  name : String
  module? : Option String
  /-- The native names of its parents. -/
  parents : List String
  fields : List TypedName
  /-- The lines of its documentation. -/
  comments : List String

/-- A class of a stub. -/
structure Class where
  nativeName : String
  definition : ClassDefinition
  /-- The methods under their names. -/
  methods : Table Callable
  /-- Whether its own definition has been seen. -/
  confirmed : Bool

namespace Class

/-- The name under which the class appears in the stub. -/
def name (c : Class) : String :=
  c.definition.name

/-- What is assumed of a class whose definition has not been seen: a name that begins with
`Gtk` loses this part and belongs to the module of that name. -/
def assumedDefinition (nativeName : String) : ClassDefinition :=
  match Text.dropStart? "Gtk".toList nativeName.toList with
  | some name => ⟨String.ofList name, some "Gtk", [], [], []⟩
  | none => ⟨nativeName, none, [], [], []⟩

/-- A class whose definition has not been seen. -/
def provisional (nativeName : String) : Class :=
  ⟨nativeName, assumedDefinition nativeName, .empty, false⟩

/-- The class with its definition; its methods stay. -/
def confirm (c : Class) (definition : ClassDefinition) : Class :=
  { c with definition := definition, confirmed := true }

/-- The class with one more method, or with another one of the same name. -/
def putMethod (c : Class) (method : Callable) : Class :=
  { c with methods := c.methods.insert method.name method }

end Class

end Stubgen
