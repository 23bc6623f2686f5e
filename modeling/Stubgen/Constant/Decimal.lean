/-!
# The shortest decimal of a binary number

A positive binary number `m · 2 ^ q` of fixed precision stands for the interval of reals
that round to it. Of the decimals in this interval, the shortest is chosen; of two equally
short ones the nearer, and of two equally near ones the larger.
-/

namespace Stubgen.Decimal

/-- A positive fraction. -/
structure Fraction where
  numerator : Nat
  denominator : Nat

/-- A decimal `digits · 10 ^ exponent`. -/
structure Value where
  digits : Nat
  exponent : Int
  deriving DecidableEq

/-- The fraction `n · 2 ^ q`. -/
def Fraction.ofBinary (n : Nat) (q : Int) : Fraction :=
  if 0 ≤ q then ⟨n * Nat.pow 2 q.toNat, 1⟩ else ⟨n, Nat.pow 2 (-q).toNat⟩

/-- The fraction divided by `10 ^ k`. -/
def Fraction.scale (f : Fraction) (k : Int) : Fraction :=
  if 0 ≤ k then ⟨f.numerator, f.denominator * Nat.pow 10 k.toNat⟩
  else ⟨f.numerator * Nat.pow 10 (-k).toNat, f.denominator⟩

/-- The reals that round to a binary number. -/
structure Interval where
  /-- The smallest of them, or the bound below them. -/
  low : Fraction
  /-- The number itself. -/
  middle : Fraction
  /-- The largest of them, or the bound above them. -/
  high : Fraction
  /-- Whether the ends round to the number, too. -/
  closed : Bool

/-- The reals that round to `m · 2 ^ q`. Below the smallest significand the neighbour is
only half as far away. -/
def Interval.ofBinary (m : Nat) (q : Int) (atBoundary : Bool) : Interval :=
  { low := .ofBinary (4 * m - if atBoundary then 1 else 2) (q - 2)
    middle := .ofBinary (4 * m) (q - 2)
    high := .ofBinary (4 * m + 2) (q - 2)
    closed := m % 2 == 0 }

/-- Whether the point `n · 10 ^ k` lies in the interval. -/
def Interval.contains (interval : Interval) (n : Nat) (k : Int) : Bool :=
  let low := interval.low.scale k
  let high := interval.high.scale k
  if interval.closed then
    low.numerator ≤ n * low.denominator && n * high.denominator ≤ high.numerator
  else low.numerator < n * low.denominator && n * high.denominator < high.numerator

/-- The decimal exponent of the leading digit of a positive fraction. -/
def Fraction.leadingExponent (f : Fraction) : Int :=
  if f.denominator ≤ f.numerator then
    ((Nat.toDigits 10 (f.numerator / f.denominator)).length : Int) - 1
  else
    match (List.range 400).find? fun e => f.denominator ≤ f.numerator * Nat.pow 10 e with
    | some e => -(e : Int)
    | none => -400

/-- The better of the two points of the grid `10 ^ k` around the number, if one of them
lies in the interval. -/
def Interval.onGrid (interval : Interval) (k : Int) : Option Value :=
  let f := interval.middle.scale k
  let below := f.numerator / f.denominator
  let rest := f.numerator % f.denominator
  match interval.contains below k, interval.contains (below + 1) k with
  | true, true => some ⟨if 2 * rest < f.denominator then below else below + 1, k⟩
  | true, false => some ⟨below, k⟩
  | false, true => some ⟨below + 1, k⟩
  | false, false => none

/-- The shortest decimal of an interval. Seventeen digits always suffice. -/
def Interval.shortest (interval : Interval) : Value :=
  let leading := interval.middle.leadingExponent
  ((List.range 17).findSome? fun places => interval.onGrid (leading - (places : Nat))).getD ⟨0, 0⟩

/-- The digits without zeros at their end, with the exponent of the last digit. -/
def dropZeros (digits : List Char) (exponent : Int) : List Char × Int :=
  let zeros := (digits.reverse.takeWhile (· = '0')).length
  (digits.take (digits.length - zeros), exponent + zeros)

end Stubgen.Decimal
