import Stubgen.Defs.Expansion
import Stubgen.Namespace.Definition
import Stubgen.Override.Application
import Stubgen.Override.Reading

/-!
# Building the namespace of a module

A module lists definition files. Each file that exists is expanded and its records are taken
up, and then the override file beside it is applied, whether or not the definition file
exists.
-/

namespace Stubgen

open Files (Path Tree)

/-- A module and the files that define it. -/
structure ModuleSpec where
  module : String
  definitions : List Path
  deriving DecidableEq

/-- What comes of building a namespace. -/
structure Building where
  /-- The namespace, or the first error. -/
  result : Except Error Namespace
  /-- The cache of definition files afterwards. -/
  cache : Defs.Cache
  /-- What there is to say about the files. -/
  events : List Event

namespace Building

/-- The building of what follows some events. -/
def after (events : List Event) (building : Building) : Building :=
  { building with events := events ++ building.events }

/-- Goes on with the namespace, unless there is an error. -/
def andThen (building : Building) (next : Namespace → Defs.Cache → Building) : Building :=
  match building.result with
  | .error _ => building
  | .ok ns => (next ns building.cache).after building.events

/-- Takes up the definitions of a file, if it exists. -/
def addDefinitions (tree : Tree) (style : DocStyle) (path : Path) (ns : Namespace)
    (cache : Defs.Cache) : Building :=
  if tree.isFile path then
    let expansion := Defs.expand tree cache path
    match expansion.result with
    | .error e => ⟨.error e, expansion.cache, expansion.events⟩
    | .ok records =>
      let defined := ns.defineAll style records
      let result :=
        match defined.error? with
        | some e => .error e
        | none => .ok defined.reached
      ⟨result, expansion.cache, expansion.events ++ defined.events⟩
  else ⟨.ok ns, cache, []⟩

/-- Applies the override file that belongs to a definition file, if it exists. -/
def addOverrides (tree : Tree) (path : Path) (ns : Namespace) (cache : Defs.Cache) : Building :=
  let overrides := overridePath path
  if tree.isFile overrides then
    match readOverrides tree overrides with
    | (reading, some e) => ⟨.error e, cache, reading.events⟩
    | (reading, none) =>
      ⟨.ok (ns.applyOverrides reading.set), cache,
        reading.events ++ ns.overrideEvents reading.set⟩
  else ⟨.ok ns, cache, []⟩

/-- Takes up files one after the other. -/
def addFiles (tree : Tree) (style : DocStyle) (ns : Namespace) (cache : Defs.Cache) :
    List Path → Building
  | [] => ⟨.ok ns, cache, []⟩
  | path :: rest =>
    ((addDefinitions tree style path ns cache).andThen (addOverrides tree path)).andThen
      fun ns cache => addFiles tree style ns cache rest

end Building

/-- Builds the namespace of a module. -/
def ModuleSpec.build (tree : Tree) (style : DocStyle) (cache : Defs.Cache) (spec : ModuleSpec) :
    Building :=
  Building.addFiles tree style .empty cache spec.definitions

end Stubgen
