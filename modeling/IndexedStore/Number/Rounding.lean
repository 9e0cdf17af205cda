/-
This file rounds exact quantities to the nearest double. A quantity is a quotient
of natural numbers with a sign; of two doubles at the same distance the one with
the even pattern is taken, and a quantity beyond the largest double becomes an
infinity.
-/

import IndexedStore.Number.Double

namespace IndexedStore

/-- The natural number nearest to a quotient, the even one of two equally near. -/
def roundHalfEven (numerator denominator : Nat) : Nat :=
  let whole := numerator / denominator
  match Ord.compare (2 * (numerator % denominator)) denominator with
  | .lt => whole
  | .gt => whole + 1
  | .eq => whole + whole % 2

namespace Double

/-- The double nearest to `numerator / denominator`. The quotient is counted in
units, then in steps of the size that its leading bits allow, and a step count
that rounds up to a power of two carries into the exponent field by itself. -/
def nearest (negative : Bool) (numerator denominator : Nat) : Double :=
  let units := numerator * unitsPerOne
  let shift := Layout.double.excess (units / denominator)
  let pattern :=
    shift * 2 ^ Layout.double.fractionBits + roundHalfEven units (denominator * 2 ^ shift)
  if pattern < Layout.double.infinityPattern then ofPattern negative pattern
  else infinity negative

/-- The double nearest to an integer. -/
def ofInt (n : Int) : Double := nearest (decide (n < 0)) n.natAbs 1

/-- The double nearest to `digits * 10 ^ exponent`, where the exponent may be large
enough that only its sign decides: past the bounds the quantity lies below half a
unit or above the largest double. -/
def ofDecimal (negative : Bool) (digits : Nat) (exponent : Int) : Double :=
  if digits = 0 then ofPattern negative 0
  else if 400 < exponent then infinity negative
  else if 0 ≤ exponent then nearest negative (digits * 10 ^ exponent.toNat) 1
  else
    let places := (-exponent).toNat
    -- A quantity with `n` digits is below `10 ^ n`, so these places leave nothing.
    if digits.log2 + 400 < places then ofPattern negative 0
    else nearest negative digits (10 ^ places)

end Double

end IndexedStore
