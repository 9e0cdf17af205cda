/-
This file finds the shortest decimal that reads back as a given double.

The quantities that round to a double form an interval around it, closed when the
pattern of the double is even. For each number of digits from one to seventeen,
the two neighbours of the double on the grid of decimals with that many digits
are tested against the interval. The first grid with a hit gives the fewest
digits, and of two hits the nearer one is taken. All tests are comparisons of
natural numbers.
-/

import IndexedStore.Number.Double

namespace IndexedStore

/-- A decimal `digits * 10 ^ exponent` without trailing zeros in `digits`. -/
structure Decimal where
  /-- The significant digits, read as a number. -/
  digits : Nat
  /-- The power of ten of the last digit. -/
  exponent : Int
deriving DecidableEq

/-- Which neighbour a double exactly between two decimals is written as. -/
inductive TieRule where
  | upward
  | toEven
deriving DecidableEq

namespace Decimal

/-- Moves trailing zeros into the exponent. The fuel is a bound on their number. -/
def stripZeros : Nat → Nat → Int → Decimal
  | 0, digits, exponent => ⟨digits, exponent⟩
  | fuel + 1, digits, exponent =>
    if digits ≠ 0 ∧ digits % 10 = 0 then stripZeros fuel (digits / 10) (exponent + 1)
    else ⟨digits, exponent⟩

end Decimal

namespace Double

/-- The quantities that round to a double, in quarters of a unit. -/
structure Interval where
  /-- The lower end. -/
  low : Nat
  /-- Four times the magnitude of the double. -/
  middle : Nat
  /-- The upper end. -/
  high : Nat
  /-- Whether the ends themselves round to the double. -/
  closed : Bool

/-- The interval of a finite positive pattern. The gap below a power of two is half
the gap above it, except at the smallest exponent. -/
def roundingInterval (pattern : Nat) : Interval :=
  let exponent := Layout.double.exponentField pattern
  let fraction := Layout.double.fractionField pattern
  let step := 2 ^ (exponent - 1)
  let middle := 4 * Layout.double.magnitude pattern
  let below := if fraction = 0 ∧ 1 < exponent then step else 2 * step
  { low := middle - below, middle := middle, high := middle + 2 * step,
    closed := pattern % 2 = 0 }

/-- Whether `candidate * numerator / denominator` quarters of a unit round to the
double of the interval. -/
def Interval.accepts (interval : Interval) (numerator denominator candidate : Nat) : Bool :=
  let scaled := candidate * numerator
  if interval.closed then
    decide (interval.low * denominator ≤ scaled) && decide (scaled ≤ interval.high * denominator)
  else
    decide (interval.low * denominator < scaled) && decide (scaled < interval.high * denominator)

/-- The accepted neighbour on the grid of multiples of `numerator / denominator`
quarters of a unit, the nearer one if both are accepted. -/
def Interval.nearestOnGrid? (interval : Interval) (tie : TieRule) (numerator denominator : Nat) :
    Option Nat :=
  let target := interval.middle * denominator
  let below := target / numerator
  let above := below + 1
  match interval.accepts numerator denominator below,
      interval.accepts numerator denominator above with
  | false, false => none
  | true, false => some below
  | false, true => some above
  | true, true =>
    match Ord.compare (2 * (target % numerator)) numerator with
    | .lt => some below
    | .gt => some above
    | .eq =>
      match tie with
      | .upward => some above
      | .toEven => if below % 2 = 0 then some below else some above

/-- The shortest decimal on the grids `10 ^ exponent`, `10 ^ (exponent - 1)` and so
on, as many of them as the fuel allows. -/
def Interval.search (interval : Interval) (tie : TieRule) : Nat → Int → Decimal
  | 0, exponent => ⟨0, exponent⟩
  | fuel + 1, exponent =>
    let numerator := if 0 ≤ exponent then 4 * unitsPerOne * 10 ^ exponent.toNat else 4 * unitsPerOne
    let denominator := if 0 ≤ exponent then 1 else 10 ^ (-exponent).toNat
    match interval.nearestOnGrid? tie numerator denominator with
    | some digits => Decimal.stripZeros 20 digits exponent
    | none => interval.search tie fuel (exponent - 1)

/-- The number of decimal digits of a natural number, zero having none. -/
def digitCount (n : Nat) : Nat :=
  if n = 0 then 0 else (Nat.toDigits 10 n).length

/-- An exponent such that the first grid tried is at least as coarse as the double
itself, so that no shorter decimal is overlooked. -/
def leadingExponent (magnitude : Nat) : Int :=
  if unitsPerOne ≤ magnitude then digitCount (magnitude / unitsPerOne)
  else
    -- Below one: the reciprocal has `n` digits, so the double is below `10 ^ (1 - n)`.
    1 - digitCount (unitsPerOne / magnitude)

/-- The shortest decimal that reads back as the magnitude of a finite double. -/
def shortest (tie : TieRule) (x : Double) : Decimal :=
  let pattern := x.unsigned
  if pattern = 0 then ⟨0, 0⟩
  else (roundingInterval pattern).search tie 20 (leadingExponent x.magnitude)

end Double

end IndexedStore
