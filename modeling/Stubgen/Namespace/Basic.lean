import Stubgen.Namespace.Class

/-!
# Namespaces

A namespace holds what the stub of one module defines: classes under their native names,
functions and constants under their own, and a table of what each native identifier refers
to. Of two definitions of one callable, the namespace keeps the one that the other yields
to.
-/

namespace Stubgen

/-- What a native identifier refers to. -/
inductive NativeTarget where
  | classNamed (nativeName : String)
  | functionNamed (name : String)
  | methodOf (nativeName method : String)
  deriving DecidableEq

/-- The definitions of one module. -/
structure Namespace where
  /-- The classes under their native names. -/
  classes : Table Class
  /-- The functions under their names. -/
  functions : Table Callable
  /-- The lines of the constants under their names. -/
  constants : Table String
  /-- What native identifiers refer to. -/
  natives : Table NativeTarget

namespace Namespace

/-- The namespace without definitions. -/
def empty : Namespace :=
  ⟨.empty, .empty, .empty, .empty⟩

/-- Whether the namespace has nothing to write. -/
def isEmpty (ns : Namespace) : Bool :=
  ns.classes.isEmpty && ns.functions.isEmpty && ns.constants.isEmpty

/-- The class with a native name. -/
def class? (ns : Namespace) (nativeName : String) : Option Class :=
  ns.classes.get? nativeName

/-- The class with a native name, provisional if it has not been seen. -/
def classOrAssumed (ns : Namespace) (nativeName : String) : Class :=
  (ns.class? nativeName).getD (.provisional nativeName)

/-- The name under which a native class appears, if the class is known. -/
def displayName? (ns : Namespace) (nativeName : String) : Option String :=
  (ns.class? nativeName).map Class.name

/-- The name under which a native class appears; its own name if the class is unknown. -/
def shownName (ns : Namespace) (nativeName : String) : String :=
  (ns.displayName? nativeName).getD nativeName

/-- The names of everything that the stub defines. -/
def displayNames (ns : Namespace) : List String :=
  ns.classes.values.map Class.name ++ ns.functions.keys ++ ns.constants.keys

/-- Whether the stub defines something under a name. -/
def hasDisplayName (ns : Namespace) (name : String) : Bool :=
  ns.functions.contains name || ns.constants.contains name ||
    ns.classes.values.any (·.name = name)

/-- The namespace with a class under its native name, which refers to it. -/
def putClass (ns : Namespace) (nativeName : String) (c : Class) : Namespace :=
  { ns with
    classes := ns.classes.insert nativeName c
    natives := ns.natives.insert nativeName (.classNamed nativeName) }

/-- Takes up the definition of a class. What was known of the class before, its methods
apart, gives way to it. -/
def confirmClass (ns : Namespace) (nativeName : String) (definition : ClassDefinition) :
    Namespace :=
  ns.putClass nativeName ((ns.classOrAssumed nativeName).confirm definition)

/-- Makes sure that a class is there, if only as a provisional one. -/
def ensureClass (ns : Namespace) (nativeName : String) : Namespace :=
  match ns.class? nativeName with
  | some _ => ns
  | none => ns.putClass nativeName (.provisional nativeName)

/-- Lets a native identifier refer to a target, if there is an identifier. -/
def register (ns : Namespace) (native? : Option String) (target : NativeTarget) : Namespace :=
  match native? with
  | none => ns
  | some native => { ns with natives := ns.natives.insert native target }

/-- Whether a definition may take the place of the one that is there, if any. -/
def accepts (existing? : Option Callable) (new : Callable) : Bool :=
  match existing? with
  | none => true
  | some existing => existing.yieldsTo new

/-- Whether the namespace takes up a function. -/
def acceptsFunction (ns : Namespace) (function : Callable) : Bool :=
  accepts (ns.functions.get? function.name) function

/-- Takes up a function, with the native identifier that refers to it, unless the function
of this name does not yield to it. -/
def addFunction (ns : Namespace) (function : Callable) (native? : Option String) : Namespace :=
  if ns.acceptsFunction function then
    { ns with functions := ns.functions.insert function.name function }.register native?
      (.functionNamed function.name)
  else ns

/-- The method of a class, if both are known. -/
def method? (ns : Namespace) (nativeName method : String) : Option Callable :=
  (ns.class? nativeName).bind fun c => c.methods.get? method

/-- Whether the namespace takes up a method of a class. -/
def acceptsMethod (ns : Namespace) (nativeName : String) (method : Callable) : Bool :=
  accepts (ns.method? nativeName method.name) method

/-- The namespace with a method in place of the one of its class that has its name. The
class must be there. -/
def putMethod (ns : Namespace) (nativeName : String) (method : Callable) : Namespace :=
  match ns.class? nativeName with
  | none => ns
  | some c => { ns with classes := ns.classes.insert nativeName (c.putMethod method) }

/-- Takes up a method of a class, with the native identifier that refers to it, unless the
method of this name does not yield to it. The class is there afterwards in any case. -/
def addMethod (ns : Namespace) (nativeName : String) (method : Callable)
    (native? : Option String) : Namespace :=
  let ready := ns.ensureClass nativeName
  if ready.acceptsMethod nativeName method then
    (ready.putMethod nativeName method).register native? (.methodOf nativeName method.name)
  else ready

/-- Writes the line of a constant. -/
def addConstant (ns : Namespace) (name line : String) : Namespace :=
  { ns with constants := ns.constants.insert name line }

/-- The function or method that a native identifier refers to. -/
def callable? (ns : Namespace) (native : String) : Option Callable :=
  match ns.natives.get? native with
  | none => none
  | some (.classNamed _) => none
  | some (.functionNamed name) => ns.functions.get? name
  | some (.methodOf nativeName method) => ns.method? nativeName method

/-- Revises the function or method that a native identifier refers to. -/
def reviseCallable (ns : Namespace) (native : String) (revise : Callable → Callable) :
    Namespace :=
  match ns.natives.get? native with
  | none => ns
  | some (.classNamed _) => ns
  | some (.functionNamed name) =>
    match ns.functions.get? name with
    | none => ns
    | some function => { ns with functions := ns.functions.insert name (revise function) }
  | some (.methodOf nativeName method) =>
    match ns.class? nativeName with
    | none => ns
    | some c =>
      match c.methods.get? method with
      | none => ns
      | some found =>
        { ns with
          classes := ns.classes.insert nativeName
            { c with methods := c.methods.insert method (revise found) } }

end Namespace

end Stubgen
