import Stubgen.Files.Path
import Stubgen.Text.Quoted

/-!
# Reports

A report tells what came of one module: where its stub was written and how much it defines,
or the error that stopped it.
-/

namespace Stubgen

/-- What came of a module. -/
structure Report where
  module : String
  /-- Where the stub was written. -/
  output? : Option Files.Path
  /-- The number of classes in the stub. -/
  classes : Nat
  /-- The number of functions in the stub. -/
  functions : Nat
  /-- The number of constants in the stub. -/
  constants : Nat
  /-- The error that stopped the module, in words. -/
  error? : Option String
  deriving DecidableEq

namespace Report

/-- The report of a module for which nothing was written. -/
def unwritten (module : String) : Report :=
  ⟨module, none, 0, 0, 0, none⟩

/-- The report of a module that an error stopped. -/
def failed (module error : String) : Report :=
  { unwritten module with error? := some error }

/-- An optional text in quotes. -/
def quotedOption : Option String → String
  | some text => "Some(" ++ Text.quoted text ++ ")"
  | none => "None"

/-- The report as one line. -/
def render (report : Report) : String :=
  "ModuleReport(module=" ++ Text.quoted report.module ++
    ", output_path=" ++ quotedOption (report.output?.map Files.Path.text) ++
    ", classes=" ++ toString report.classes ++
    ", functions=" ++ toString report.functions ++
    ", constants=" ++ toString report.constants ++
    ", error=" ++ quotedOption report.error? ++ ")"

end Report

end Stubgen
