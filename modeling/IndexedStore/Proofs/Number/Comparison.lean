/-
This file proves that integers and doubles are compared exactly. Doubles beyond 64 bits are told
apart by two bounds. The others are compared by their whole part, and by what is left of them when
it is taken off.

None of these steps rounds anything, because both parts are doubles themselves: they take some of
the digits of the double in their places. So the comparison comes to the order of the places on the
extended line.
-/

import IndexedStore.Proofs.Number.Double

namespace IndexedStore

/-! ### Places -/

@[simp] theorem Extended.compare_finite (units units' : Int) :
    (finite units).compare (finite units') = Ord.compare units units' := by
  rw [Extended.compare, rank, rank, Std.ReflOrd.compare_self]
  rfl

/-- Integers stand on the number line in their own order. -/
theorem compare_extendedOfInt (first second : Int) :
    (Double.extendedOfInt first).compare (Double.extendedOfInt second) =
      Ord.compare first second := by
  have positive : (0 : Int) < unitsPerOne := Int.natCast_pos.mpr (Nat.two_pow_pos _)
  rw [Double.extendedOfInt, Double.extendedOfInt, Extended.compare_finite]
  simp only [compare, compareOfLessAndEq, Int.mul_lt_mul_right positive,
    Int.mul_eq_mul_right_iff (Int.ne_of_gt positive)]

theorem compare_int64 (first second : Int64) :
    Ord.compare first second = Ord.compare first.toInt second.toInt := by
  simp only [compare, compareOfLessAndEq, Int64.lt_iff_toInt_lt, Int64.toInt_inj]

namespace Double

variable {x : Double} {negative : Bool} {pattern size : Nat}

/-! ### Doubles from sign and magnitude -/

theorem toNat_bits_ofPattern (bound : pattern < Layout.double.signWeight) :
    (ofPattern negative pattern).bits.toNat =
      if negative then Layout.double.signWeight + pattern else pattern := by
  have weight : Layout.double.signWeight = 2 ^ 63 := rfl
  refine UInt64.toNat_ofNat_of_lt ?_
  rw [UInt64.size]
  split <;> omega

theorem isNegative_ofPattern (bound : pattern < Layout.double.signWeight) :
    (ofPattern negative pattern).isNegative = negative := by
  rw [isNegative, toNat_bits_ofPattern bound]
  cases negative <;> simp [bound]

theorem unsigned_ofPattern (bound : pattern < Layout.double.signWeight) :
    (ofPattern negative pattern).unsigned = pattern := by
  rw [unsigned, toNat_bits_ofPattern bound]
  cases negative <;> simp [Nat.mod_eq_of_lt bound]

/-- A double that is made of a magnitude stands there. -/
theorem extended_ofMagnitude (found : Layout.double.pattern? size = some pattern) :
    (ofMagnitude negative size).extended = .finite (signed negative size) := by
  obtain ⟨hasSize, finite⟩ := Layout.magnitude_of_pattern? found
  have bound := Nat.lt_trans finite (infinityPattern_lt_signWeight Layout.double)
  rw [ofMagnitude, found, extended_eq_finite_iff, isFinite, magnitude, unsigned_ofPattern bound,
    isNegative_ofPattern bound, hasSize]
  exact ⟨decide_eq_true finite, rfl⟩

/-! ### Whole parts -/

/-- What a finite double has after the point, in units. -/
def rest (x : Double) : Int := signed x.isNegative (x.magnitude % unitsPerOne)

theorem signed_add (negative : Bool) (size size' : Nat) :
    signed negative (size + size') = signed negative size + signed negative size' := by
  cases negative <;> simp [signed]
  omega

theorem whole_add_rest (x : Double) :
    signed x.isNegative x.magnitude = x.whole * unitsPerOne + x.rest := by
  rw [whole, rest, ← signed_mul, ← signed_add, Nat.div_add_mod']

theorem natAbs_rest_lt (x : Double) : x.rest.natAbs < unitsPerOne := by
  rw [rest, natAbs_signed]
  exact Nat.mod_lt _ (Nat.two_pow_pos _)

/-- The whole part of a finite double and what is left of it are the magnitudes of doubles. -/
theorem exists_patterns (finite : x.isFinite) :
    (∃ pattern, Layout.double.pattern? (x.magnitude / unitsPerOne * unitsPerOne) = some pattern) ∧
      ∃ pattern, Layout.double.pattern? (x.magnitude % unitsPerOne) = some pattern := by
  obtain ⟨shift, digits, scaled, word⟩ := Layout.exists_scaled (of_decide_eq_true finite)
  have size : x.magnitude = digits * 2 ^ shift := by
    rw [magnitude, word, Layout.magnitude_scaled scaled]
  rw [size]
  by_cases large : Layout.double.unitExponent ≤ shift
  · -- All digits stand before the point.
    have divides : unitsPerOne ∣ digits * 2 ^ shift :=
      Nat.dvd_trans (Nat.pow_dvd_pow 2 large) (Nat.dvd_mul_left _ _)
    rw [Nat.div_mul_cancel divides, Nat.mod_eq_zero_of_dvd divides, ← Nat.zero_mul (2 ^ shift)]
    exact ⟨Layout.exists_pattern?_of_le scaled (Nat.le_refl _),
      Layout.exists_pattern?_of_le scaled (Nat.zero_le _)⟩
  · have split : unitsPerOne = 2 ^ (Layout.double.unitExponent - shift) * 2 ^ shift := by
      rw [← Nat.pow_add, Nat.sub_add_cancel (Nat.le_of_not_le large)]
      rfl
    rw [split, Nat.mul_div_mul_right _ _ (Nat.two_pow_pos shift), Nat.mul_mod_mul_right,
      ← Nat.mul_assoc]
    exact ⟨Layout.exists_pattern?_of_le scaled (Nat.div_mul_le_self _ _),
      Layout.exists_pattern?_of_le scaled (Nat.mod_le _ _)⟩

theorem extended_trunc (finite : x.isFinite) :
    x.trunc.extended = extendedOfInt x.whole := by
  obtain ⟨⟨pattern, found⟩, -⟩ := exists_patterns finite
  rw [trunc, if_pos finite, extended_ofMagnitude found, signed_mul]
  rfl

/-- On the line there is one zero, so its sign may be left out. -/
theorem signed_and_ne_zero (negative : Bool) (size : Nat) :
    signed (negative && size != 0) size = signed negative size := by
  cases size with
  | zero => cases negative <;> rfl
  | succ size => rw [bne_iff_ne.mpr (Nat.succ_ne_zero size), Bool.and_true]

theorem extended_fract (finite : x.isFinite) : x.fract.extended = .finite x.rest := by
  obtain ⟨-, pattern, found⟩ := exists_patterns finite
  rw [fract, extended_ofMagnitude found, signed_and_ne_zero]
  rfl

/-- A double at an integer of 64 bits is cast to that integer. -/
theorem toInt_toInt64 {n : Int} (stands : x.extended = extendedOfInt n) (least : -2 ^ 63 ≤ n)
    (most : n < 2 ^ 63) : x.toInt64.toInt = n := by
  obtain ⟨finite, place⟩ := extended_eq_finite_iff.mp stands
  have isWhole : x.whole = n := ((signed_eq_mul_iff (Nat.two_pow_pos _)).mp place).2
  have notNaN : x.isNaN = false := by
    simp only [isFinite, isNaN, decide_eq_true_eq, decide_eq_false_iff_not] at *
    omega
  have notInfinite : x.isInfinite = false := by
    simp only [isFinite, isInfinite, decide_eq_true_eq, decide_eq_false_iff_not] at *
    omega
  rw [toInt64, notNaN, notInfinite, if_neg Bool.false_ne_true, if_neg Bool.false_ne_true, isWhole]
  exact Int64.toInt_ofIntClamp least (Int.le_of_lt_add_one most)

/-! ### Comparing -/

theorem extended_of_isNaN (isNaN : x.isNaN) : x.extended = .notANumber := if_pos isNaN

/-- NaN stands above every place of a number. -/
theorem rank_extended_lt (number : x.isNaN = false) :
    x.extended.rank < Extended.notANumber.rank := by
  rw [extended, number, if_neg Bool.false_ne_true]
  split
  · split <;> decide
  · exact Nat.lt_of_sub_eq_succ rfl

/-- Doubles compare as their places do. -/
theorem compareFloats_eq (x y : Double) : x.compareFloats y = x.extended.compare y.extended := by
  rw [compareFloats]
  cases isNaN : x.isNaN <;> cases isNaN' : y.isNaN
  · rfl
  · rw [extended_of_isNaN isNaN', Extended.compare,
      Nat.compare_eq_lt.mpr (rank_extended_lt isNaN)]
    rfl
  · rw [extended_of_isNaN isNaN, Extended.compare,
      Nat.compare_eq_gt.mpr (rank_extended_lt isNaN')]
    rfl
  · rw [extended_of_isNaN isNaN, extended_of_isNaN isNaN']
    rfl

theorem extended_limit (negative : Bool) :
    (limit negative).extended = extendedOfInt (signed negative (2 ^ 63)) := by
  cases negative <;> decide +kernel

/-- A finite double is compared with an integer by its whole part, and by what it has after the
point only if that is the integer. -/
theorem compare_extendedOfInt_extended (finite : x.isFinite) (n : Int) :
    (extendedOfInt n).compare x.extended = (Ord.compare n x.whole).then (Ord.compare 0 x.rest) := by
  rw [extended_eq_finite_iff.mpr ⟨finite, rfl⟩, extendedOfInt, Extended.compare_finite,
    whole_add_rest]
  have small := x.natAbs_rest_lt
  generalize unitsPerOne = unit at *
  rcases Int.lt_trichotomy n x.whole with less | rfl | greater
  · have distance := Int.mul_le_mul_of_nonneg_right (show n ≤ x.whole - 1 by omega)
      (Int.natCast_nonneg unit)
    rw [Std.compare_eq_lt.mpr less, Int.sub_mul] at *
    exact Std.compare_eq_lt.mpr (by omega)
  · rw [Std.ReflOrd.compare_self]
    simp only [Ordering.then, compare, compareOfLessAndEq]
    grind
  · have distance := Int.mul_le_mul_of_nonneg_right (show x.whole + 1 ≤ n by omega)
      (Int.natCast_nonneg unit)
    rw [Std.compare_eq_gt.mpr greater, Int.add_mul] at *
    exact Std.compare_eq_gt.mpr (by omega)

/-- A double within the bounds has a whole part of 64 bits. -/
theorem whole_bounds (least : -2 ^ 63 * (unitsPerOne : Int) ≤ signed x.isNegative x.magnitude)
    (most : signed x.isNegative x.magnitude < 2 ^ 63 * (unitsPerOne : Int)) :
    -2 ^ 63 ≤ x.whole ∧ x.whole < 2 ^ 63 := by
  have positive : 0 < unitsPerOne := Nat.two_pow_pos _
  have split := Nat.div_add_mod x.magnitude unitsPerOne
  have small := Nat.mod_lt x.magnitude positive
  rw [whole]
  generalize x.magnitude / unitsPerOne = quotient at *
  generalize unitsPerOne = unit at *
  generalize x.isNegative = negative at *
  cases negative with
  | false =>
    simp only [signed, if_false, Bool.false_eq_true] at *
    have below : quotient < 2 ^ 63 :=
      Nat.lt_of_mul_lt_mul_left (by omega : unit * quotient < unit * 2 ^ 63)
    omega
  | true =>
    simp only [signed, if_true] at *
    have atMost : quotient ≤ 2 ^ 63 :=
      Nat.le_of_mul_le_mul_left (by omega : unit * quotient ≤ unit * 2 ^ 63) positive
    omega

/-- A double is NaN, infinite or finite. -/
theorem extended_cases (x : Double) :
    x.isNaN ∧ x.extended = .notANumber ∨ x.isNaN = false ∧
      (x.extended = .negativeInfinity ∨ x.extended = .positiveInfinity ∨ x.isFinite) := by
  by_cases none : x.isNaN
  · exact .inl ⟨none, extended_of_isNaN none⟩
  · refine .inr ⟨Bool.eq_false_iff.mpr none, ?_⟩
    rw [extended, if_neg none]
    split
    · split
      · exact .inl rfl
      · exact .inr (.inl rfl)
    · simp only [isNaN, isInfinite, isFinite, decide_eq_true_eq] at *
      exact .inr (.inr (by omega))

/-- Integers and doubles compare as their places do, wherever the double stands: within 64 bits or
beyond them, at an infinity, or where NaN is. -/
theorem compareIntegerFloat_eq (n : Int64) (x : Double) :
    compareIntegerFloat n x = (extendedOfInt n.toInt).compare x.extended := by
  have zero : (ofPattern false 0).extended = .finite 0 := by decide +kernel
  rw [compareIntegerFloat, compareFloats_eq, compareFloats_eq, compareFloats_eq, extended_limit,
    extended_limit, zero]
  obtain ⟨none, top⟩ | ⟨number, low | high | finite⟩ := extended_cases x
  · rw [none, top]
    rfl
  · rw [number, low]
    rfl
  · rw [number, high]
    rfl
  have least := n.le_toInt
  have most := n.toInt_lt
  have place := extended_eq_finite_iff.mpr ⟨finite, rfl⟩
  have positive : (0 : Int) < unitsPerOne := Int.natCast_pos.mpr (Nat.two_pow_pos _)
  rw [number, Bool.false_or]
  split
  · rename_i above
    rw [place, extendedOfInt, Extended.compare_finite, Std.isGE_compare] at above
    rw [place, extendedOfInt, Extended.compare_finite]
    refine (Std.compare_eq_lt.mpr (Int.lt_of_lt_of_le ?_ above)).symm
    exact Int.mul_lt_mul_of_pos_right most positive
  rename_i notAbove
  split
  · rename_i below
    rw [place, extendedOfInt, Extended.compare_finite, Ordering.isLT_iff_eq_lt,
      Std.compare_eq_lt] at below
    rw [place, extendedOfInt, Extended.compare_finite]
    refine (Std.compare_eq_gt.mpr (Int.lt_of_lt_of_le below ?_)).symm
    exact Int.mul_le_mul_of_nonneg_right least (Int.le_of_lt positive)
  · rename_i notBelow
    rw [place, extendedOfInt, Extended.compare_finite, Std.isGE_compare] at notAbove
    rw [place, extendedOfInt, Extended.compare_finite, Ordering.isLT_iff_eq_lt,
      Std.compare_eq_lt] at notBelow
    obtain ⟨lower, upper⟩ := whole_bounds (Int.not_lt.mp notBelow) (Int.not_le.mp notAbove)
    rw [compare_int64, toInt_toInt64 (extended_trunc finite) lower upper, extended_fract finite,
      Extended.compare_finite, compare_extendedOfInt_extended finite]

end Double

end IndexedStore
