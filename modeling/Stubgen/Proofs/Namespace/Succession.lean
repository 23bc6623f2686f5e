import Stubgen.Namespace.Basic

/-!
# Which definition keeps a place

Definitions of one callable compete for its place, and which of them keeps it depends on the
order in which they arrive. This file follows a single place. A holder with fewer parameters
gives way to more contenders, so of two runs over the same contenders the one that begins with
more parameters either never changes or meets the other. In particular, contenders that arrive
once more leave the holder that they left before.
-/

namespace Stubgen

/-- A definition that competes for a place, with the native identifier that it brings. -/
structure Contender where
  callable : Callable
  native? : Option String

namespace Contender

/-- The number of parameters that are written at a place. -/
def width : Option Contender → Nat
  | none => 0
  | some holder => holder.callable.parameters.length

/-- Whether a place gives way to a contender. -/
def yields (holder? : Option Contender) (new : Contender) : Bool :=
  Namespace.accepts (holder?.map callable) new.callable

/-- Who holds a place after a contender has arrived. -/
def succeed (holder? : Option Contender) (new : Contender) : Option Contender :=
  if yields holder? new then some new else holder?

/-- Who holds a place after contenders have arrived one after the other. -/
def lastHolder (holder? : Option Contender) (contenders : List Contender) : Option Contender :=
  contenders.foldl succeed holder?

/-- A callable has at most one parameter more than it has explicit ones. -/
theorem length_parameters_le (callable : Callable) :
    callable.parameters.length ≤ callable.explicit.length + 1 := by
  unfold Callable.parameters
  split
  · exact Nat.le_refl _
  · exact Nat.le_succ _

/-- A place gives way to a contender exactly if it is not wider than the explicit parameters
of the contender and one. -/
theorem yields_iff (holder? : Option Contender) (new : Contender) :
    yields holder? new = true ↔ width holder? ≤ new.callable.explicit.length + 1 := by
  cases holder? with
  | none => simp [yields, Namespace.accepts, width]
  | some holder => simp [yields, Namespace.accepts, width, Callable.yieldsTo]

/-- A place that gives way to a contender is held by it. -/
theorem succeed_of_yields {holder? : Option Contender} {new : Contender}
    (hyields : yields holder? new = true) : succeed holder? new = some new :=
  if_pos hyields

/-- A place that refuses a contender keeps its holder. -/
theorem succeed_of_refused {holder? : Option Contender} {new : Contender}
    (hrefused : yields holder? new = false) : succeed holder? new = holder? :=
  if_neg (Bool.eq_false_iff.mp hrefused)

variable {first second : Option Contender}

/-- What a wide place gives way to, a narrower one gives way to as well. -/
theorem yields_of_width_le (hwidth : width first ≤ width second) {new : Contender}
    (hyields : yields second new = true) : yields first new = true := by
  rw [yields_iff] at hyields ⊢
  exact Nat.le_trans hwidth hyields

/-- A contender that a place refuses is narrower than the place. -/
theorem width_le_of_refused {new : Contender} (hrefused : yields second new = false) :
    width (some new) ≤ width second := by
  have hwide : ¬width second ≤ new.callable.explicit.length + 1 := by
    rw [← yields_iff, hrefused]
    exact Bool.false_ne_true
  have hnew : width (some new) ≤ new.callable.explicit.length + 1 :=
    length_parameters_le new.callable
  omega

/-- Two runs over the same contenders, the second begun with the wider holder: either they
meet, or the second has kept its holder and is still the wider one. -/
theorem lastHolder_eq_or (hwidth : width first ≤ width second) (contenders : List Contender) :
    lastHolder first contenders = lastHolder second contenders ∨
      width (lastHolder first contenders) ≤ width second ∧
        lastHolder second contenders = second := by
  induction contenders generalizing first with
  | nil => exact .inr ⟨hwidth, rfl⟩
  | cons new rest ih =>
    simp only [lastHolder, List.foldl_cons] at ih ⊢
    cases hsecond : yields second new with
    | true =>
      -- What the wider holder gives way to, both give way to: here the runs meet.
      have hfirst := yields_of_width_le hwidth hsecond
      left
      rw [succeed_of_yields hfirst, succeed_of_yields hsecond]
    | false =>
      rw [succeed_of_refused hsecond]
      apply ih
      unfold succeed
      split
      · exact width_le_of_refused hsecond
      · exact hwidth

/-- Contenders that arrive once more leave the holder that they left before. -/
theorem lastHolder_again (contenders : List Contender) :
    lastHolder (lastHolder none contenders) contenders = lastHolder none contenders := by
  have hwidth : width none ≤ width (lastHolder none contenders) := Nat.zero_le _
  rcases lastHolder_eq_or hwidth contenders with hmeet | ⟨_, hstays⟩
  · exact hmeet.symm
  · exact hstays

/-- After any contenders, what the wider run gives way to, the other one gives way to. -/
theorem yields_of_yields_lastHolder (hwidth : width first ≤ width second)
    (contenders : List Contender) {new : Contender}
    (hyields : yields (lastHolder second contenders) new = true) :
    yields (lastHolder first contenders) new = true := by
  rcases lastHolder_eq_or hwidth contenders with hmeet | ⟨hnarrow, hstays⟩
  · rwa [hmeet]
  · rw [hstays] at hyields
    exact yields_of_width_le hnarrow hyields

end Contender

end Stubgen
