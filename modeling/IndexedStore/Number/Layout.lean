/-
This file describes the binary interchange layouts of floating-point numbers: a
sign bit, an exponent field and a fraction field. Three widths occur, and all of
them are read and written by the same two functions, because a layout is fixed
by the widths of its two fields.

A finite magnitude is always a whole number of units, the unit being the
smallest positive number of the layout, so every computation here is exact
arithmetic on natural numbers.
-/

-- Powers of numbers are the ones of the core library, whichever others are imported.
attribute [instance (high), default_instance (high + 1)] instPowNat

namespace IndexedStore

/-- The widths of the exponent and fraction fields of a floating-point layout. -/
structure Layout where
  /-- Number of bits of the exponent field. -/
  exponentBits : Nat
  /-- Number of bits of the fraction field. -/
  fractionBits : Nat
deriving DecidableEq

namespace Layout

/-- The 16-bit layout. -/
def half : Layout := ⟨5, 10⟩

/-- The 32-bit layout. -/
def single : Layout := ⟨8, 23⟩

/-- The 64-bit layout. -/
def double : Layout := ⟨11, 52⟩

/-- Half of the layout's range of exponents, taken off a stored exponent. -/
def bias (layout : Layout) : Nat := 2 ^ (layout.exponentBits - 1) - 1

/-- The smallest positive number of the layout is `2 ^ (-unitExponent)`. -/
def unitExponent (layout : Layout) : Nat := layout.bias + layout.fractionBits - 1

/-- The exponent field that is kept for infinities and NaN. -/
def topExponent (layout : Layout) : Nat := 2 ^ layout.exponentBits - 1

/-- The pattern of positive infinity, above the pattern of every finite magnitude. -/
def infinityPattern (layout : Layout) : Nat := layout.topExponent * 2 ^ layout.fractionBits

/-- The weight of the sign bit. -/
def signWeight (layout : Layout) : Nat := 2 ^ (layout.exponentBits + layout.fractionBits)

/-- The exponent field of a pattern. -/
def exponentField (layout : Layout) (pattern : Nat) : Nat :=
  pattern / 2 ^ layout.fractionBits % 2 ^ layout.exponentBits

/-- The fraction field of a pattern. -/
def fractionField (layout : Layout) (pattern : Nat) : Nat :=
  pattern % 2 ^ layout.fractionBits

/-- The magnitude of a finite pattern, counted in units of the layout. -/
def magnitude (layout : Layout) (pattern : Nat) : Nat :=
  let exponent := layout.exponentField pattern
  if exponent = 0 then layout.fractionField pattern
  else (2 ^ layout.fractionBits + layout.fractionField pattern) * 2 ^ (exponent - 1)

/-- How far a magnitude has to be shifted to the right for its leading bits to
fill the fraction field and the implied bit above it. -/
def excess (layout : Layout) (magnitude : Nat) : Nat :=
  magnitude.log2 - layout.fractionBits

/-- The pattern without sign whose magnitude is exactly the given number of units,
if the layout has one. Counting one exponent step as `2 ^ fractionBits` lets the
implied leading bit carry into the exponent field by itself. -/
def pattern? (layout : Layout) (magnitude : Nat) : Option Nat :=
  let shift := layout.excess magnitude
  let pattern := shift * 2 ^ layout.fractionBits + magnitude / 2 ^ shift
  if magnitude % 2 ^ shift = 0 ∧ pattern < layout.infinityPattern then some pattern else none

end Layout

end IndexedStore
