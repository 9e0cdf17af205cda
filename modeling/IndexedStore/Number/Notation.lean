/-
This file writes numbers as text. A double is written from its shortest decimal,
either positionally, with at least one digit after the point, or with an exponent
when it is very large or very small. Where the boundary lies, and how the special
values are spelled, is one record; the store uses three of them.
-/

import IndexedStore.Number.Shortest

namespace IndexedStore

/-- The decisions of a written form of doubles. -/
structure DoubleStyle where
  /-- The smallest exponent of the leading digit that is written positionally. -/
  lowestPositional : Int
  /-- The largest exponent of the leading digit that is written positionally. -/
  highestPositional : Int
  /-- Whether a positive exponent carries a plus sign. -/
  signedExponent : Bool
  /-- Which of two equally near shortest decimals is written. -/
  tie : TieRule
  /-- How NaN is written. -/
  nanText : String
  /-- How positive infinity is written. -/
  infinityText : String
  /-- How negative infinity is written. -/
  negativeInfinityText : String

namespace DoubleStyle

/-- The form in messages: positional from `0.0001` up to below `1e16`. -/
def message : DoubleStyle where
  lowestPositional := -4
  highestPositional := 15
  signedExponent := false
  tie := .upward
  nanText := "NaN"
  infinityText := "inf"
  negativeInfinityText := "-inf"

/-- The form in JSON: positional from `0.00001` up to below `1e+16`. JSON has no
numbers that are not finite, and writes null for them. -/
def json : DoubleStyle where
  lowestPositional := -5
  highestPositional := 15
  signedExponent := true
  tie := .toEven
  nanText := "null"
  infinityText := "null"
  negativeInfinityText := "null"

/-- The form without exponents, however long the number gets. -/
def plain : DoubleStyle :=
  { message with lowestPositional := -400, highestPositional := 400 }

end DoubleStyle

namespace Decimal

/-- The significant digits from the left. -/
def digitChars (decimal : Decimal) : List Char := Nat.toDigits 10 decimal.digits

/-- The exponent of the leading digit. -/
def leading (decimal : Decimal) : Int := decimal.exponent + decimal.digitChars.length - 1

/-- The positional form, with a zero where one side of the point has no digit. -/
def positional (decimal : Decimal) : List Char :=
  let digits := decimal.digitChars
  if 0 ≤ decimal.exponent then
    digits ++ List.replicate decimal.exponent.toNat '0' ++ ['.', '0']
  else
    let places := (-decimal.exponent).toNat
    let padded := List.replicate (places + 1 - digits.length) '0' ++ digits
    padded.take (padded.length - places) ++ '.' :: padded.drop (padded.length - places)

/-- The form with an exponent: one digit before the point, and no point when it is
the only one. -/
def scientific (decimal : Decimal) (signedExponent : Bool) : List Char :=
  let mantissa := match decimal.digitChars with
    | [] => []
    | [single] => [single]
    | first :: rest => first :: '.' :: rest
  let sign := if decimal.leading < 0 then ['-'] else if signedExponent then ['+'] else []
  mantissa ++ 'e' :: sign ++ Nat.toDigits 10 decimal.leading.natAbs

end Decimal

namespace Double

/-- The text of a double in the given style. -/
def render (style : DoubleStyle) (x : Double) : String :=
  if x.isNaN then style.nanText
  else if x.isInfinite then
    if x.isNegative then style.negativeInfinityText else style.infinityText
  else
    let decimal := x.shortest style.tie
    let isPositional := decide (decimal.digits = 0) ||
      (decide (style.lowestPositional ≤ decimal.leading) &&
        decide (decimal.leading ≤ style.highestPositional))
    let body :=
      if isPositional then decimal.positional else decimal.scientific style.signedExponent
    String.ofList (if x.isNegative then '-' :: body else body)

end Double

/-- The decimal text of an integer. -/
def renderInt (n : Int) : List Char :=
  if n < 0 then '-' :: Nat.toDigits 10 n.natAbs else Nat.toDigits 10 n.natAbs

end IndexedStore
