/-
This file proves how doubles, the integers among them and their narrower forms
belong together. A double is fixed by its place on the extended line except for the
sign of zero, it is equal to an integer exactly when `toInt64?` finds that integer,
and a narrower layout that takes a double gives it back.
-/

import IndexedStore.Proofs.Number.Layout
import IndexedStore.Number.Double

namespace IndexedStore.Double

/-! ### Words and fields -/

/-- A double is its sign and its unsigned word. -/
theorem ofPattern_unsigned (x : Double) : ofPattern x.isNegative x.unsigned = x := by
  have weight : Layout.double.signWeight = 2 ^ 63 := rfl
  have bound : x.bits.toNat < 2 ^ 64 := x.bits.toNat_lt
  have word : (if x.isNegative then Layout.double.signWeight + x.unsigned else x.unsigned) =
      x.bits.toNat := by
    simp only [isNegative, unsigned, weight, decide_eq_true_eq]
    split <;> omega
  rw [ofPattern, word, UInt64.ofNat_toNat]

theorem eq_of_fields {x y : Double} (sign : x.isNegative = y.isNegative)
    (word : x.unsigned = y.unsigned) : x = y := by
  rw [← ofPattern_unsigned x, ← ofPattern_unsigned y, sign, word]

theorem eq_of_magnitude {x y : Double} (finite : x.isFinite) (finite' : y.isFinite)
    (sign : x.isNegative = y.isNegative) (size : x.magnitude = y.magnitude) : x = y := by
  refine eq_of_fields sign ?_
  have word := Layout.pattern?_magnitude (of_decide_eq_true finite)
  have word' := Layout.pattern?_magnitude (of_decide_eq_true finite')
  rw [show Layout.double.magnitude x.unsigned = Layout.double.magnitude y.unsigned from size,
    word'] at word
  exact (Option.some_inj.mp word).symm

/-! ### Signs -/

theorem signed_mul (negative : Bool) (size unit : Nat) :
    signed negative (size * unit) = signed negative size * unit := by
  cases negative
  · rw [signed, if_neg Bool.false_ne_true, signed, if_neg Bool.false_ne_true, Int.natCast_mul]
  · rw [signed, if_pos rfl, signed, if_pos rfl, Int.natCast_mul, Int.neg_mul]

theorem natAbs_signed (negative : Bool) (size : Nat) : (signed negative size).natAbs = size := by
  cases negative <;> simp [signed]

/-- A signed size is a multiple of a unit exactly when the size is. -/
theorem signed_eq_mul_iff {negative : Bool} {size unit : Nat} {n : Int} (positive : 0 < unit) :
    signed negative size = n * unit ↔ size % unit = 0 ∧ signed negative (size / unit) = n := by
  constructor
  · intro equal
    have whole : size = n.natAbs * unit := by
      rw [← natAbs_signed negative size, equal, Int.natAbs_mul, Int.natAbs_natCast]
    have exact : size % unit = 0 := by rw [whole, Nat.mul_mod_left]
    refine ⟨exact, Int.eq_of_mul_eq_mul_right (Int.natCast_ne_zero.mpr (Nat.ne_of_gt positive)) ?_⟩
    rw [← signed_mul, Nat.div_mul_cancel (Nat.dvd_of_mod_eq_zero exact), equal]
  · rintro ⟨exact, rfl⟩
    rw [← signed_mul, Nat.div_mul_cancel (Nat.dvd_of_mod_eq_zero exact)]

/-! ### The extended line -/

theorem extended_eq_finite_iff {x : Double} {units : Int} :
    x.extended = .finite units ↔ x.isFinite ∧ signed x.isNegative x.magnitude = units := by
  simp only [extended, isNaN, isInfinite, isFinite, decide_eq_true_eq]
  split
  · simp; omega
  · split
    · split <;> simp <;> omega
    · simp; omega

theorem extended_eq_infinite_iff {x : Double} {negative : Bool} :
    x.extended = (if negative then .negativeInfinity else .positiveInfinity) ↔
      x.isInfinite ∧ x.isNegative = negative := by
  simp only [extended, isNaN, isInfinite, decide_eq_true_eq]
  split
  · cases negative <;> simp <;> omega
  · split
    · rename_i word
      cases negative <;> cases x.isNegative <;> simp [word]
    · rename_i word
      cases negative <;> simp [word]

theorem extendedOfInt_inj {n m : Int} : extendedOfInt n = extendedOfInt m ↔ n = m := by
  have nonzero : (unitsPerOne : Int) ≠ 0 :=
    Int.natCast_ne_zero.mpr (Nat.ne_of_gt (Nat.two_pow_pos _))
  rw [extendedOfInt, extendedOfInt, Extended.finite.injEq, Int.mul_eq_mul_right_iff nonzero]

/-- A double is equal to the integer that `toInt64?` finds, and to no integer of 64 bits
if it finds none. -/
theorem toInt64?_eq_some_iff {x : Double} {n : Int64} :
    x.toInt64? = some n ↔ x.extended = extendedOfInt n.toInt := by
  have positive : 0 < unitsPerOne := Nat.two_pow_pos _
  rw [extendedOfInt, extended_eq_finite_iff, signed_eq_mul_iff positive]
  simp only [toInt64?]
  split
  · rename_i whole
    split
    · rename_i range
      rw [Option.some_inj]
      constructor
      · rintro rfl
        have settled := Int64.toInt_ofInt_of_le range.1 (Int.lt_add_one_of_le range.2)
        exact ⟨whole.1, whole.2, settled.symm⟩
      · rintro ⟨-, -, equal⟩
        rw [equal, Int64.ofInt_toInt]
    · rename_i range
      refine ⟨nofun, ?_⟩
      rintro ⟨-, -, equal⟩
      rw [equal] at range
      exact absurd ⟨n.minValue_le_toInt, n.toInt_le⟩ range
  · rename_i whole
    refine ⟨nofun, ?_⟩
    rintro ⟨finite, exact, -⟩
    exact absurd ⟨finite, exact⟩ whole

theorem isNaN_of_toInt64? {x : Double} {n : Int64} (integral : x.toInt64? = some n) :
    x.isNaN = false := by
  obtain ⟨finite, -⟩ := extended_eq_finite_iff.mp (toInt64?_eq_some_iff.mp integral)
  simp only [isFinite, isNaN, decide_eq_true_eq, decide_eq_false_iff_not] at *
  omega

/-- A double that is not integral within 64 bits is fixed by its place. -/
theorem eq_of_extended_eq {x y : Double} (number : x.isNaN = false)
    (same : x.extended = y.extended) (fractional : x.toInt64? = none) : x = y := by
  by_cases finite : x.isFinite
  · obtain ⟨finite', equal⟩ := extended_eq_finite_iff.mp
      (same.symm.trans (extended_eq_finite_iff.mpr ⟨finite, rfl⟩))
    have size : x.magnitude = y.magnitude := by
      rw [← natAbs_signed x.isNegative x.magnitude, ← equal, natAbs_signed]
    have nonzero : x.magnitude ≠ 0 := by
      intro zero
      have integral : x.toInt64? = some 0 := by
        rw [toInt64?_eq_some_iff, extendedOfInt, extended_eq_finite_iff, zero,
          show (0 : Int64).toInt = 0 from rfl, Int.zero_mul]
        exact ⟨finite, by cases x.isNegative <;> rfl⟩
      rw [integral] at fractional
      cases fractional
    refine eq_of_magnitude finite finite' ?_ size
    rw [← size] at equal
    revert equal
    cases x.isNegative <;> cases y.isNegative <;> simp [signed] <;> omega
  · have infinite : x.isInfinite := by
      simp only [isNaN, isFinite, isInfinite, decide_eq_false_iff_not, decide_eq_true_eq] at *
      omega
    obtain ⟨infinite', sign⟩ := extended_eq_infinite_iff.mp
      (same.symm.trans (extended_eq_infinite_iff.mpr ⟨infinite, rfl⟩))
    exact eq_of_fields sign.symm
      ((of_decide_eq_true infinite).trans (of_decide_eq_true infinite').symm)

/-! ### Narrow layouts -/

theorem infinityPattern_lt_signWeight (layout : Layout) :
    layout.infinityPattern < layout.signWeight := by
  rw [Layout.infinityPattern, Layout.signWeight, Layout.topExponent, Nat.pow_add]
  exact Nat.mul_lt_mul_of_pos_right (Nat.sub_lt (Nat.two_pow_pos _) Nat.one_pos)
    (Nat.two_pow_pos _)

/-- A word of a layout with its sign put on. -/
def withSign (layout : Layout) (negative : Bool) (pattern : Nat) : Nat :=
  (if negative then layout.signWeight else 0) + pattern

theorem signWeight_le_withSign_iff {layout : Layout} {negative : Bool} {pattern : Nat}
    (bound : pattern < layout.signWeight) :
    layout.signWeight ≤ withSign layout negative pattern ↔ negative := by
  cases negative <;> simp [withSign, bound]

theorem withSign_mod {layout : Layout} {negative : Bool} {pattern : Nat}
    (bound : pattern < layout.signWeight) :
    withSign layout negative pattern % layout.signWeight = pattern := by
  cases negative <;> simp [withSign, Nat.mod_eq_of_lt bound]

/-- A double whose word a narrower layout keeps is infinite, or it is finite and the
narrower pattern has its magnitude. -/
theorem exists_pattern_of_narrow? {layout : Layout} {x : Double} {word : Nat}
    (kept : x.narrow? layout = some word) :
    ∃ pattern, word = withSign layout x.isNegative pattern ∧
      (x.isInfinite ∧ pattern = layout.infinityPattern ∨
        x.isFinite ∧ pattern < layout.infinityPattern ∧
          layout.magnitude pattern * 2 ^ (Layout.double.unitExponent - layout.unitExponent) =
            x.magnitude) := by
  simp only [narrow?] at kept
  split at kept
  · rename_i infinite
    exact ⟨_, (Option.some_inj.mp kept).symm, .inl ⟨infinite, rfl⟩⟩
  split at kept
  · rename_i finite
    split at kept
    · rename_i exact
      obtain ⟨pattern, found, rfl⟩ := Option.map_eq_some_iff.mp kept
      obtain ⟨size, bound⟩ := Layout.magnitude_of_pattern? found
      refine ⟨pattern, rfl, .inr ⟨finite, bound, ?_⟩⟩
      rw [size, Nat.div_mul_cancel (Nat.dvd_of_mod_eq_zero exact)]
    · cases kept
  · cases kept

/-- A narrower layout that takes a double gives it back. -/
theorem widen_narrow? {layout : Layout} {x : Double} {word : Nat}
    (kept : x.narrow? layout = some word) : widen layout word = x := by
  obtain ⟨pattern, rfl, ⟨infinite, rfl⟩ | ⟨finite, bound, size⟩⟩ := exists_pattern_of_narrow? kept
  · have below := infinityPattern_lt_signWeight layout
    simp only [widen, withSign_mod below, Nat.lt_irrefl, if_false, if_true, infinity,
      signWeight_le_withSign_iff below, Bool.decide_eq_true]
    rw [← of_decide_eq_true infinite, ofPattern_unsigned]
  · have below := Nat.lt_trans bound (infinityPattern_lt_signWeight layout)
    simp only [widen, withSign_mod below, Nat.lt_asymm bound, Nat.ne_of_lt bound, if_false,
      signWeight_le_withSign_iff below, Bool.decide_eq_true, size]
    rw [magnitude, Layout.pattern?_magnitude (of_decide_eq_true finite)]
    exact ofPattern_unsigned x

/-- The word of a narrower layout fits into its width. -/
theorem narrow?_lt {layout : Layout} {x : Double} {word : Nat}
    (kept : x.narrow? layout = some word) : word < 2 * layout.signWeight := by
  have below := infinityPattern_lt_signWeight layout
  obtain ⟨pattern, rfl, ⟨-, rfl⟩ | ⟨-, bound, -⟩⟩ := exists_pattern_of_narrow? kept <;>
    cases x.isNegative <;> simp only [withSign] <;> simp <;> omega

end IndexedStore.Double
