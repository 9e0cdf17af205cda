/-
This file says which number the word of a double denotes. Sign, exponent and fraction are read off
the word by their weights, and the number is written down from them as the layout defines it: a
rational number, an infinity, or no number at all.

Doubles compare by their places on the extended line, which count units of the smallest positive
double. The places are in the order of the numbers that are denoted, so that nothing is rounded
where an integer is compared with a double.
-/

import IndexedStore.Proofs.Number.Double
import IndexedStore.Proofs.Value.KeyOrder
import Mathlib.Algebra.Order.Field.Rat
import Mathlib.Tactic.FieldSimp
import Mathlib.Tactic.Ring

namespace IndexedStore

/-- The rational numbers with an infinity at either end, and above them all a place for what is
no number. -/
abbrev NumberLine := WithTop (WithBot (WithTop ℚ))

namespace NumberLine

/-- A rational number on the line. -/
def rational (number : ℚ) : NumberLine := ((number : WithTop ℚ) : WithBot (WithTop ℚ))

/-- The end below all rational numbers. -/
def negativeInfinity : NumberLine := ((⊥ : WithBot (WithTop ℚ)) : NumberLine)

/-- The end above all rational numbers. -/
def positiveInfinity : NumberLine := (((⊤ : WithTop ℚ) : WithBot (WithTop ℚ)) : NumberLine)

theorem rational_lt_rational {number number' : ℚ} :
    rational number < rational number' ↔ number < number' :=
  WithTop.coe_lt_coe.trans (WithBot.coe_lt_coe.trans WithTop.coe_lt_coe)

theorem negativeInfinity_lt (number : ℚ) : negativeInfinity < rational number :=
  WithTop.coe_lt_coe.mpr (WithBot.bot_lt_coe _)

theorem lt_positiveInfinity (number : ℚ) : rational number < positiveInfinity :=
  WithTop.coe_lt_coe.mpr (WithBot.coe_lt_coe.mpr (WithTop.coe_lt_top number))

theorem negativeInfinity_lt_positiveInfinity : negativeInfinity < positiveInfinity :=
  WithTop.coe_lt_coe.mpr (WithBot.bot_lt_coe _)

end NumberLine

/-! ### Words -/

namespace Double

/-- The sign bit has the weight `2 ^ 63`. -/
def sign (x : Double) : ℚ := if 2 ^ 63 ≤ x.bits.toNat then -1 else 1

/-- The exponent field has eleven bits above the fraction field. -/
def exponent (x : Double) : Nat := x.bits.toNat / 2 ^ 52 % 2 ^ 11

/-- The fraction field has the 52 lowest bits. -/
def fraction (x : Double) : Nat := x.bits.toNat % 2 ^ 52

/-- The rational number that a finite word denotes. The digit before the point is one unless the
exponent field is zero. -/
def rational (x : Double) : ℚ :=
  if x.exponent = 0 then x.sign * (x.fraction / 2 ^ 52) * 2 ^ (-1022 : ℤ)
  else x.sign * (1 + x.fraction / 2 ^ 52) * 2 ^ ((x.exponent : ℤ) - 1023)

/-- What a word denotes. The largest exponent is kept for the infinities and for NaN. -/
def denoted (x : Double) : NumberLine :=
  if x.exponent < 2047 then .rational x.rational
  else if x.fraction ≠ 0 then ⊤
  else if x.sign < 0 then .negativeInfinity
  else .positiveInfinity

end Double

/-! ### Places -/

namespace Extended

/-- The number at a place of the extended line, where finite places count units. -/
def denoted : Extended → NumberLine
  | negativeInfinity => .negativeInfinity
  | finite units => .rational (units / unitsPerOne)
  | positiveInfinity => .positiveInfinity
  | notANumber => ⊤

theorem unitsPerOne_pos : (0 : ℚ) < unitsPerOne := by
  exact_mod_cast Nat.two_pow_pos _

/-- A place that comes first is at a smaller number. -/
theorem denoted_lt_of_compare {first second : Extended} (less : first.compare second = .lt) :
    first.denoted < second.denoted := by
  cases first <;> cases second
  case finite.finite units units' =>
    rw [compare_finite, compare_lt_iff_lt] at less
    rw [denoted, denoted, NumberLine.rational_lt_rational,
      div_lt_div_iff_of_pos_right unitsPerOne_pos]
    exact Int.cast_lt.mpr less
  all_goals first
    | exact NumberLine.negativeInfinity_lt _
    | exact NumberLine.lt_positiveInfinity _
    | exact NumberLine.negativeInfinity_lt_positiveInfinity
    | exact WithTop.coe_lt_top _
    | cases less

/-- Places compare as the numbers at them do. -/
theorem compare_eq_compare_denoted (first second : Extended) :
    first.compare second = Ord.compare first.denoted second.denoted := by
  cases order : first.compare second with
  | lt => rw [compare_lt_iff_lt.mpr (denoted_lt_of_compare order)]
  | eq => rw [compare_eq_iff.mp order, compare_eq_iff_eq.mpr rfl]
  | gt =>
    rw [compare_swap, Ordering.swap_eq_gt] at order
    rw [compare_gt_iff_gt.mpr (denoted_lt_of_compare order)]

end Extended

/-! ### Places of doubles and integers -/

namespace Double

theorem denoted_extendedOfInt (n : Int) : (extendedOfInt n).denoted = .rational n := by
  rw [extendedOfInt, Extended.denoted, Int.cast_mul, Int.cast_natCast,
    mul_div_cancel_right₀ _ Extended.unitsPerOne_pos.ne']

theorem exponent_lt (x : Double) : x.exponent < 2048 := Nat.mod_lt _ (Nat.two_pow_pos 11)

theorem fraction_lt (x : Double) : x.fraction < 2 ^ 52 := Nat.mod_lt _ (Nat.two_pow_pos 52)

/-- Without its sign bit a word is its exponent field followed by its fraction field. -/
theorem unsigned_eq (x : Double) : x.unsigned = x.exponent * 2 ^ 52 + x.fraction := by
  show x.bits.toNat % 2 ^ 63 = x.bits.toNat / 2 ^ 52 % 2 ^ 11 * 2 ^ 52 + x.bits.toNat % 2 ^ 52
  omega

theorem isFinite_iff {x : Double} : x.isFinite ↔ x.exponent < 2047 := by
  have pattern : Layout.double.infinityPattern = 2047 * 2 ^ 52 := rfl
  have := x.fraction_lt
  rw [isFinite, decide_eq_true_eq, unsigned_eq, pattern]
  omega

theorem isNaN_iff {x : Double} : x.isNaN ↔ x.exponent = 2047 ∧ x.fraction ≠ 0 := by
  have pattern : Layout.double.infinityPattern = 2047 * 2 ^ 52 := rfl
  have := x.exponent_lt
  have := x.fraction_lt
  rw [isNaN, decide_eq_true_eq, unsigned_eq, pattern]
  omega

theorem isInfinite_iff {x : Double} : x.isInfinite ↔ x.exponent = 2047 ∧ x.fraction = 0 := by
  have pattern : Layout.double.infinityPattern = 2047 * 2 ^ 52 := rfl
  have := x.exponent_lt
  have := x.fraction_lt
  rw [isInfinite, decide_eq_true_eq, unsigned_eq, pattern]
  omega

theorem magnitude_eq (x : Double) : x.magnitude =
    if x.exponent = 0 then x.fraction else (2 ^ 52 + x.fraction) * 2 ^ (x.exponent - 1) := by
  have exponent : Layout.double.exponentField x.unsigned = x.exponent := by
    show x.bits.toNat % 2 ^ 63 / 2 ^ 52 % 2 ^ 11 = x.bits.toNat / 2 ^ 52 % 2 ^ 11
    omega
  have fraction : Layout.double.fractionField x.unsigned = x.fraction := by
    show x.bits.toNat % 2 ^ 63 % 2 ^ 52 = x.bits.toNat % 2 ^ 52
    omega
  rw [magnitude, Layout.magnitude, exponent, fraction]
  rfl

theorem sign_lt_zero_iff {x : Double} : x.sign < 0 ↔ x.isNegative := by
  rw [sign, isNegative, decide_eq_true_eq, show Layout.double.signWeight = 2 ^ 63 from rfl]
  split
  · exact iff_of_true neg_one_lt_zero ‹_›
  · exact iff_of_false (not_lt.mpr zero_le_one) ‹_›

theorem cast_signed (x : Double) (size : Nat) :
    ((signed x.isNegative size : Int) : ℚ) = x.sign * size := by
  rw [signed, isNegative, sign, show Layout.double.signWeight = 2 ^ 63 from rfl]
  simp only [decide_eq_true_eq]
  split <;> simp

theorem cast_unitsPerOne : (unitsPerOne : ℚ) = 2 ^ Layout.double.unitExponent :=
  Nat.cast_pow 2 Layout.double.unitExponent

/-- The last digit of the fraction field counts units if the exponent is the least. -/
theorem two_zpow_eq : (2 : ℚ) ^ (-1022 : ℤ) = 2 ^ 52 / unitsPerOne := by
  rw [cast_unitsPerOne, show Layout.double.unitExponent = 1022 + 52 from rfl, pow_add, zpow_neg,
    div_mul_cancel_right₀ (by positivity)]
  rfl

theorem rational_eq (x : Double) :
    x.rational = (signed x.isNegative x.magnitude : Int) / unitsPerOne := by
  rw [rational, cast_signed, magnitude_eq]
  have one := Extended.unitsPerOne_pos.ne'
  by_cases isLeast : x.exponent = 0
  · rw [if_pos isLeast, if_pos isLeast, two_zpow_eq]
    generalize (unitsPerOne : ℚ) = unit at *
    field_simp
  · obtain ⟨steps, exponent⟩ := Nat.exists_eq_succ_of_ne_zero isLeast
    have shift : (2 : ℚ) ^ ((x.exponent : ℤ) - 1023) = 2 ^ steps * 2 ^ (-1022 : ℤ) := by
      rw [← zpow_natCast, ← zpow_add₀ two_ne_zero, exponent]
      congr 1
      push_cast
      ring
    rw [if_neg isLeast, if_neg isLeast, shift, two_zpow_eq, exponent, Nat.succ_sub_one]
    generalize (unitsPerOne : ℚ) = unit at *
    push_cast
    field_simp
    norm_num

/-- The place of a double is at the number that its word denotes. -/
theorem denoted_extended (x : Double) : x.extended.denoted = x.denoted := by
  rw [denoted]
  by_cases finite : x.exponent < 2047
  · rw [if_pos finite, extended_eq_finite_iff.mpr ⟨isFinite_iff.mpr finite, rfl⟩, rational_eq]
    rfl
  have top : x.exponent = 2047 := by
    have := x.exponent_lt
    omega
  rw [if_neg finite]
  by_cases isNaN : x.fraction ≠ 0
  · rw [if_pos isNaN, extended, if_pos (isNaN_iff.mpr ⟨top, isNaN⟩)]
    rfl
  · have infinite := isInfinite_iff.mpr ⟨top, not_not.mp isNaN⟩
    rw [if_neg isNaN, extended_eq_infinite_iff.mpr ⟨infinite, rfl⟩]
    simp only [sign_lt_zero_iff]
    split <;> rfl

end Double

end IndexedStore
