import Stubgen.DocLink
import Stubgen.Event
import Stubgen.Namespace.Basic

/-!
# From definition records to namespaces

A record is first turned into a definition: a class, a function or a method with what is
known about it, or nothing at all. This may fail for want of a field. A definition is then
taken up by the namespace, which cannot fail. So a record that fails changes nothing.
-/

namespace Stubgen

/-- A default value of the native language in terms of the stub language: the null pointer
is the empty value, a constant of the toolkit loses what marks it as one, and a truth value
is a number, however it is capitalized. Anything else is kept. -/
def stubDefault (value : String) : String :=
  let text := value.toList
  let isWord (word : String) := text.map Char.toLower = word.toList
  if value = "NULL" then "None"
  else
    match Text.dropStart? "GDK_".toList text with
    | some rest => String.ofList rest
    | none =>
      match Text.dropStart? "GTK_".toList text with
      | some rest => String.ofList rest
      | none => if isWord "true" then "1" else if isWord "false" then "0" else value

/-- A parameter of a definition. -/
structure Parameter where
  name : String
  tag : String
  /-- The default value in terms of the stub language. -/
  default? : Option String

namespace Parameter

/-- The parameter as it is written. -/
def render (parameter : Parameter) : String :=
  match parameter.default? with
  | none => parameter.name
  | some value => parameter.name ++ "=" ++ value

/-- The name of the parameter and the tag of its type. -/
def typed (parameter : Parameter) : TypedName :=
  ⟨parameter.name, parameter.tag⟩

/-- The name of a parameter without the marks of a pointer to a function or to a value. -/
def bareName (name : String) : String :=
  String.ofList (Text.dropStart ['*'] (Text.dropStart ['(', '*'] (Text.trim name.toList)))

/-- The default value that the parts of a parameter after its type and its name tell. -/
def defaultOf (parts : List Defs.Form) : Option String :=
  (parts.find? fun part => part.head? = some "default").bind fun part =>
    (part.items?.bind List.getLast?).bind fun value =>
      value.text?.map fun text => stubDefault (Text.trimmed text)

/-- The parameter of a form `(type name …)`. -/
def ofForm? : Defs.Form → Option Parameter
  | .list (type :: name :: parts) =>
    match type.text?, name.text? with
    | some tag, some name => some ⟨bareName name, Text.trimmed tag, defaultOf parts⟩
    | _, _ => none
  | _ => none

end Parameter

/-- What a record adds to a namespace. -/
inductive Definition where
  /-- The definition of the class with a native name. -/
  | ofClass (nativeName : String) (definition : ClassDefinition)
  | ofFunction (function : Callable) (native? : Option String)
  /-- A method of the class with a native name; its link is still missing. -/
  | ofMethod (nativeName : String) (method : Callable) (native? : Option String)
  /-- The record defines nothing that a stub shows. -/
  | ofNothing

namespace Definition

open Defs (Form Record)

/-- The name and the tag of a field `(type name)`. -/
def fieldOf? : Form → Option TypedName
  | .list (type :: name :: _) =>
    match type.text?, name.text? with
    | some tag, some name => some ⟨Text.trimmed name, Text.trimmed tag⟩
    | _, _ => none
  | _ => none

/-- The definition of a class. -/
def classOf (style : DocStyle) (record : Record) (nativeName : String) : ClassDefinition :=
  let module? := record.firstText? "in-module"
  { name := record.name
    module? := module?
    parents := (record.firstText? "parent").toList ++
      (record.values "implements").filterMap fun value => value.text?.map Text.trimmed
    fields := (record.values "fields").filterMap fieldOf?
    comments := (DocLink.line? style module? nativeName none).toList }

/-- The lines of documentation that a callable has before a link is known. -/
def commentsOf (record : Record) : List String :=
  let deprecation :=
    if record.has "deprecated" then
      match record.firstText? "deprecated" with
      | some text => ["Deprecated: " ++ text]
      | none => ["Deprecated"]
    else []
  deprecation ++ (record.firstText? "c-name").toList.map fun identifier =>
    "C impl: " ++ identifier ++ "()"

/-- The parameters of a callable; those that lack a type or a name are left out. -/
def parametersOf (record : Record) : List Parameter :=
  (record.values "parameters").filterMap Parameter.ofForm?

/-- The names of the properties that a constructor takes as keywords. -/
def propertiesOf (record : Record) : List String :=
  (record.values "properties").filterMap fun value =>
    match value with
    | .list items => (items.head?.bind Form.text?).map Text.trimmed
    | value => value.text?.map Text.trimmed

/-- The callable of a record under a name. -/
def callableOf (record : Record) (name : String) (isMethod : Bool) (returns : String) :
    Callable :=
  let parameters := parametersOf record
  { name := name
    isMethod := isMethod
    types := parameters.map Parameter.typed
    explicit := parameters.map Parameter.render
    returns := returns
    comments := commentsOf record }

/-- The constructor of a class. If the record lists properties, they are its parameters. -/
def constructorOf (record : Record) (nativeName : String) : Callable :=
  let callable := callableOf record constructorName true nativeName
  if record.has "properties" then
    callable.withTypes ((propertiesOf record).map fun name => ⟨name, Tag.unspecified⟩)
  else callable

/-- The definition of a function or method. A record that names the class it constructs
defines the constructor of that class. -/
def callableOfRecord (record : Record) (isMethod : Bool) : Except Error Definition :=
  let native? := record.firstText? "c-name"
  let returns := (record.firstText? "return-type").getD Tag.nothing
  match record.firstText? "is-constructor-of" with
  | some nativeName => .ok (.ofMethod nativeName (constructorOf record nativeName) native?)
  | none =>
    if isMethod then
      match record.firstText? "of-object" with
      | some nativeName =>
        .ok (.ofMethod nativeName (callableOf record record.name true returns) native?)
      | none => .error (.missingField record.kind record.name "of-object")
    else .ok (.ofFunction (callableOf record record.name false returns) native?)

/-- What a record adds to a namespace. -/
def ofRecord (style : DocStyle) (record : Record) : Except Error Definition :=
  match record.kind with
  | .function => callableOfRecord record false
  | .method => callableOfRecord record true
  | .other _ => .ok .ofNothing
  | kind =>
    match record.firstText? "c-name" with
    | some nativeName => .ok (.ofClass nativeName (classOf style record nativeName))
    | none => .error (.missingField kind record.name "c-name")

/-- What there is to say about the parameters of a record. -/
def events (record : Record) : List Event :=
  match record.kind with
  | .function | .method =>
    ((record.values "parameters").filter fun form => (Parameter.ofForm? form).isNone).map
      fun form => .malformedParameter form record.name
  | _ => []

end Definition

namespace Namespace

open Defs (Record)

/-- The link of a method with a native name: one site knows it by its own name, the other
by the native one. -/
def methodLink? (style : DocStyle) (module? : Option String) (nativeName : String)
    (method : Callable) (native? : Option String) : Option String :=
  native?.bind fun native =>
    DocLink.line? style module? nativeName
      (match style with
      | .pygtk => method.name
      | .gnome => native)

/-- Takes up a definition. The link of a method is in the module that its class has at
this time. -/
def apply (style : DocStyle) (ns : Namespace) : Definition → Namespace
  | .ofClass nativeName definition => ns.confirmClass nativeName definition
  | .ofFunction function native? => ns.addFunction function native?
  | .ofMethod nativeName method native? =>
    let module? := (ns.classOrAssumed nativeName).definition.module?
    let link := methodLink? style module? nativeName method native?
    ns.addMethod nativeName { method with comments := method.comments ++ link.toList } native?
  | .ofNothing => ns

/-- Takes up a record. -/
def define (style : DocStyle) (ns : Namespace) (record : Record) : Except Error Namespace :=
  match Definition.ofRecord style record with
  | .error e => .error e
  | .ok definition => .ok (ns.apply style definition)

/-- What comes of taking up records one after the other. -/
structure Defined where
  /-- The namespace with the records before the first that fails. -/
  reached : Namespace
  /-- The error of the first record that fails. -/
  error? : Option Error
  /-- What there is to say about the records that were looked at. -/
  events : List Event

/-- Takes up records until one fails. -/
def defineAll (style : DocStyle) (ns : Namespace) : List Record → Defined
  | [] => ⟨ns, none, []⟩
  | record :: rest =>
    match ns.define style record with
    | .error e => ⟨ns, some e, Definition.events record⟩
    | .ok ns =>
      let defined := ns.defineAll style rest
      { defined with events := Definition.events record ++ defined.events }

end Namespace

end Stubgen
