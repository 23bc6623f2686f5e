import Stubgen.Namespace.Basic
import Stubgen.Override.Basic
import Stubgen.Wrapper.Signature

/-!
# Applying overrides

A wrapper written by hand tells the true signature of the callable that it is for. The
signature of the definition gives way to it, but only if both the parameters and the result
are understood.
-/

namespace Stubgen

namespace Override

/-- The parameters that a wrapper tells. -/
def parameters? (override : Override) : Option (List TypedName) :=
  match override.style with
  | .noArguments => some []
  | .keywords | .positional => Wrapper.parameters? override.code.toList

/-- The tag of the result that a wrapper tells. -/
def returns? (override : Override) : Option String :=
  (Wrapper.result? override.code.toList).map Wrapper.Result.toTag

/-- What there is to say about the wrapper of a function. -/
def events (function : String) (override : Override) : List Event :=
  (match override.style with
    | .noArguments => []
    | .keywords | .positional => Wrapper.parameterEvents function override.code.toList) ++
    Wrapper.resultEvents function override.code.toList

/-- The callable with the signature that a wrapper tells, if the wrapper is understood. -/
def refine (override : Override) (callable : Callable) : Callable :=
  match override.parameters?, override.returns? with
  | some types, some returns => callable.withSignature types returns
  | _, _ => callable

end Override

namespace Namespace

/-- Applies the overrides of a set in their order. -/
def applyOverrides (ns : Namespace) (set : OverrideSet) : Namespace :=
  set.wrappers.entries.foldl (fun ns entry => ns.reviseCallable entry.1 entry.2.refine) ns

/-- The number of overrides whose native identifier refers to a callable. -/
def matchedOverrides (ns : Namespace) (set : OverrideSet) : Nat :=
  set.wrappers.entries.countP fun entry => (ns.callable? entry.1).isSome

/-- What there is to say about the overrides of a set. -/
def overrideEvents (ns : Namespace) (set : OverrideSet) : List Event :=
  set.wrappers.entries.flatMap fun entry =>
    match ns.callable? entry.1 with
    | none => [.unknownOverride entry.1]
    | some _ => entry.2.events entry.1

end Namespace

end Stubgen
