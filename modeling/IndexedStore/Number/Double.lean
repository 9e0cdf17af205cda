/-
This file holds the floating-point numbers of the store: 64-bit words in the
double layout, with their exact values.

A finite double is a whole number of units of size `2 ^ (-1074)`. Integers are
whole numbers of such units too, so integers and doubles compare exactly on one
line, on which the infinities stand at the two ends and NaN above them all.
-/

import IndexedStore.Number.Layout

namespace IndexedStore

/-- A floating-point number, given by its 64-bit word. -/
structure Double where
  /-- Sign bit, exponent field and fraction field, from the top. -/
  bits : UInt64
deriving DecidableEq, Inhabited

/-! ### The extended line -/

/-- A place on the number line: a whole number of units, an infinity, or the
place above all of them that NaN takes. -/
inductive Extended where
  | negativeInfinity
  | finite (units : Int)
  | positiveInfinity
  | notANumber
deriving DecidableEq

namespace Extended

/-- The four kinds of place in ascending order. -/
def rank : Extended → Nat
  | negativeInfinity => 0
  | finite _ => 1
  | positiveInfinity => 2
  | notANumber => 3

/-- The position among the finite places, and zero for the others. -/
def position : Extended → Int
  | finite units => units
  | _ => 0

/-- Compares two places: first by kind, then by position. -/
def compare (first second : Extended) : Ordering :=
  (Ord.compare first.rank second.rank).then (Ord.compare first.position second.position)

end Extended

/-- How many units of `2 ^ (-1074)` make one. -/
def unitsPerOne : Nat := 2 ^ Layout.double.unitExponent

namespace Double

/-! ### Fields -/

/-- Whether the sign bit is set. -/
def isNegative (x : Double) : Bool := decide (Layout.double.signWeight ≤ x.bits.toNat)

/-- The word without its sign bit. -/
def unsigned (x : Double) : Nat := x.bits.toNat % Layout.double.signWeight

/-- Patterns above the one of infinity are NaN. -/
def isNaN (x : Double) : Bool := decide (Layout.double.infinityPattern < x.unsigned)

/-- Whether the number is one of the two infinities. -/
def isInfinite (x : Double) : Bool := decide (x.unsigned = Layout.double.infinityPattern)

/-- Whether the number is neither infinite nor NaN. -/
def isFinite (x : Double) : Bool := decide (x.unsigned < Layout.double.infinityPattern)

/-- The distance from zero in units, of a finite number. -/
def magnitude (x : Double) : Nat := Layout.double.magnitude x.unsigned

/-- Puts a sign on a magnitude. -/
def signed (negative : Bool) (magnitude : Nat) : Int :=
  if negative then -(magnitude : Int) else magnitude

/-- The place of a double on the extended line. -/
def extended (x : Double) : Extended :=
  if x.isNaN then .notANumber
  else if x.isInfinite then if x.isNegative then .negativeInfinity else .positiveInfinity
  else .finite (signed x.isNegative x.magnitude)

/-! ### Words from fields -/

/-- The double with the given sign and unsigned pattern. -/
def ofPattern (negative : Bool) (pattern : Nat) : Double :=
  ⟨UInt64.ofNat (if negative then Layout.double.signWeight + pattern else pattern)⟩

/-- The quiet NaN, in which every NaN is written. -/
def nan : Double := ofPattern false (Layout.double.infinityPattern + 2 ^ 51)

/-- The infinity of the given sign. -/
def infinity (negative : Bool) : Double := ofPattern negative Layout.double.infinityPattern

/-! ### Integers -/

/-- The place of an integer on the extended line. -/
def extendedOfInt (n : Int) : Extended := .finite (n * unitsPerOne)

/-- The whole part of a finite double, rounded towards zero. -/
def whole (x : Double) : Int := signed x.isNegative (x.magnitude / unitsPerOne)

/-- The integer that a double is equal to, if it is integral and fits into 64 bits.
Negative zero is the integer zero. -/
def toInt64? (x : Double) : Option Int64 :=
  if x.isFinite ∧ x.magnitude % unitsPerOne = 0 then
    let whole := signed x.isNegative (x.magnitude / unitsPerOne)
    if Int64.minValue.toInt ≤ whole ∧ whole ≤ Int64.maxValue.toInt then some (Int64.ofInt whole)
    else none
  else none

/-- The integer of 64 bits at the whole part of a double, or else the one that is nearest.
NaN gives zero. -/
def toInt64 (x : Double) : Int64 :=
  if x.isNaN then 0
  else if x.isInfinite then if x.isNegative then Int64.minValue else Int64.maxValue
  else Int64.ofIntClamp x.whole

/-! ### Parts of a number -/

/-- The double of a sign and a magnitude, or infinity if no double has that magnitude. -/
def ofMagnitude (negative : Bool) (size : Nat) : Double :=
  match Layout.double.pattern? size with
  | some pattern => ofPattern negative pattern
  | none => infinity negative

/-- The whole part of a double. The infinities and NaN stay as they are. -/
def trunc (x : Double) : Double :=
  if x.isFinite then ofMagnitude x.isNegative (x.magnitude / unitsPerOne * unitsPerOne) else x

/-- What is left of a finite double when its whole part is taken off. This is a double too, so
nothing is rounded. Where nothing is left it is the positive zero. -/
def fract (x : Double) : Double :=
  let rest := x.magnitude % unitsPerOne
  ofMagnitude (x.isNegative && rest != 0) rest

/-! ### Comparing -/

/-- Compares two doubles. NaN is equal to itself and above every other number. -/
def compareFloats (x y : Double) : Ordering :=
  match x.isNaN, y.isNaN with
  | true, true => .eq
  | true, false => .gt
  | false, true => .lt
  | false, false => x.extended.compare y.extended

/-- The double `2 ^ 63`, the first one above the integers of 64 bits, and its opposite, which is
the least of them. -/
def limit (negative : Bool) : Double := ofPattern negative (1086 * 2 ^ 52)

/-- Compares an integer with a double, without rounding the integer. Doubles beyond 64 bits are
told apart first. The others have an integer as their whole part, and what they have after the
point is looked at only if that is the integer. -/
def compareIntegerFloat (n : Int64) (x : Double) : Ordering :=
  if x.isNaN || (x.compareFloats (limit false)).isGE then .lt
  else if (x.compareFloats (limit true)).isLT then .gt
  else (Ord.compare n x.trunc.toInt64).then ((ofPattern false 0).compareFloats x.fract)

/-! ### Narrow layouts -/

/-- The word of a double in a narrower layout, if that layout keeps it exactly.
Both layouts count magnitudes in their own unit. -/
def narrow? (layout : Layout) (x : Double) : Option Nat :=
  let sign := if x.isNegative then layout.signWeight else 0
  if x.isInfinite then some (sign + layout.infinityPattern)
  else if x.isFinite then
    let ratio := 2 ^ (Layout.double.unitExponent - layout.unitExponent)
    if x.magnitude % ratio = 0 then (layout.pattern? (x.magnitude / ratio)).map (sign + ·)
    else none
  else none

/-- Reads a word in a narrower layout. Every number of the narrower layout is a
double; all NaN words read as the one NaN. -/
def widen (layout : Layout) (word : Nat) : Double :=
  let negative := decide (layout.signWeight ≤ word)
  let pattern := word % layout.signWeight
  if layout.infinityPattern < pattern then nan
  else if pattern = layout.infinityPattern then infinity negative
  else
    let ratio := 2 ^ (Layout.double.unitExponent - layout.unitExponent)
    match Layout.double.pattern? (layout.magnitude pattern * ratio) with
    | some wide => ofPattern negative wide
    | none => infinity negative

end Double

end IndexedStore
