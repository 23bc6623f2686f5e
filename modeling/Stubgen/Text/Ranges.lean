/-!
# Sets of characters as ranges

A property of characters is written down as the ascending list of the ranges of
code points that have it.
-/

namespace Stubgen.Text

/-- A set of code points, as inclusive ranges. -/
structure CharSet where
  /-- The first and the last code point of each range. -/
  ranges : Array (Nat × Nat)

/-- Whether a character lies in one of the ranges. -/
def CharSet.contains (set : CharSet) (c : Char) : Bool :=
  set.ranges.any fun r => r.1 ≤ c.toNat && c.toNat ≤ r.2

end Stubgen.Text
