import Stubgen.Files.Path

/-!
# Where a stub is written

A dotted module name leads through one directory per name to a file that is named for the
last one.
-/

namespace Stubgen.Stub

/-- The path of the stub of a module in a directory. -/
def location (directory : Files.Path) (module : String) : Files.Path :=
  let names := (Text.splitAt '.' module.toList).map String.ofList
  let holder := names.dropLast.foldl (fun path name => path.join ⟨name⟩) directory
  holder.join ⟨names.getLast?.getD module ++ ".pi"⟩

end Stubgen.Stub
