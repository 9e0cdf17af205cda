/-
This file proves that finite patterns and magnitudes of a floating-point layout
determine each other. Both directions go through a third form: digits, at most one
bit more than the fraction field holds, and the number of places they are shifted to
the left. Digits that are shifted at all fill that bit.
-/

import IndexedStore.Number.Layout

namespace IndexedStore.Layout

variable {layout : Layout}

/-- Digits and their shift, in the only combination that stands for a pattern. -/
structure Scaled (layout : Layout) (shift digits : Nat) : Prop where
  /-- There is at most one bit above the fraction field. -/
  fits : digits < 2 * 2 ^ layout.fractionBits
  /-- Digits that are shifted have it. -/
  leading : shift = 0 ∨ 2 ^ layout.fractionBits ≤ digits
  /-- The pattern is below the one of infinity. -/
  finite : shift * 2 ^ layout.fractionBits + digits < layout.infinityPattern

theorem exists_scaled {pattern : Nat} (finite : pattern < layout.infinityPattern) :
    ∃ shift digits, Scaled layout shift digits ∧
      pattern = shift * 2 ^ layout.fractionBits + digits := by
  have positive := Nat.two_pow_pos layout.fractionBits
  have small := Nat.mod_lt pattern positive
  have split := Nat.div_add_mod pattern (2 ^ layout.fractionBits)
  rw [Nat.mul_comm] at split
  cases exponent : pattern / 2 ^ layout.fractionBits with
  | zero =>
    rw [exponent, Nat.zero_mul, Nat.zero_add] at split
    exact ⟨0, pattern, ⟨by omega, .inl rfl, by omega⟩, by omega⟩
  | succ shift =>
    rw [exponent, Nat.succ_mul] at split
    exact ⟨shift, 2 ^ layout.fractionBits + pattern % 2 ^ layout.fractionBits,
      ⟨by omega, .inr (by omega), by omega⟩, by omega⟩

/-- The magnitude of a pattern is its digits, shifted. -/
theorem magnitude_scaled {shift digits : Nat} (scaled : Scaled layout shift digits) :
    layout.magnitude (shift * 2 ^ layout.fractionBits + digits) = digits * 2 ^ shift := by
  obtain ⟨fits, leading, finite⟩ := scaled
  have positive := Nat.two_pow_pos layout.fractionBits
  by_cases small : digits < 2 ^ layout.fractionBits
  · have unshifted : shift = 0 := by omega
    subst unshifted
    simp [magnitude, exponentField, fractionField, Nat.div_eq_of_lt small, Nat.mod_eq_of_lt small]
  · -- The bit above the fraction field carries into the exponent field.
    have pattern : shift * 2 ^ layout.fractionBits + digits =
        (digits - 2 ^ layout.fractionBits) + 2 ^ layout.fractionBits * (shift + 1) := by
      rw [Nat.mul_succ, Nat.mul_comm]
      omega
    have fraction : digits - 2 ^ layout.fractionBits < 2 ^ layout.fractionBits := by omega
    have bound : shift + 1 < 2 ^ layout.exponentBits := by
      have below : 2 ^ layout.fractionBits * (shift + 1) <
          2 ^ layout.fractionBits * (2 ^ layout.exponentBits - 1) := by
        rw [Nat.mul_comm _ (2 ^ layout.exponentBits - 1)]
        exact Nat.lt_of_le_of_lt (Nat.le_add_left _ _) (pattern ▸ finite)
      have := Nat.lt_of_mul_lt_mul_left below
      omega
    have exponent :
        layout.exponentField (shift * 2 ^ layout.fractionBits + digits) = shift + 1 := by
      rw [exponentField, pattern, Nat.add_mul_div_left _ _ positive, Nat.div_eq_of_lt fraction,
        Nat.zero_add, Nat.mod_eq_of_lt bound]
    rw [magnitude, exponent, if_neg (Nat.succ_ne_zero shift), fractionField, pattern,
      Nat.add_mul_mod_self_left, Nat.mod_eq_of_lt fraction]
    congr 1
    omega

/-- Digits fill the fraction field exactly when they are shifted to their own place. -/
theorem excess_scaled {shift digits : Nat} (scaled : Scaled layout shift digits) :
    layout.excess (digits * 2 ^ shift) = shift := by
  obtain ⟨fits, leading, -⟩ := scaled
  have positive := Nat.two_pow_pos layout.fractionBits
  rw [excess]
  rcases leading with rfl | leading
  · rw [Nat.pow_zero, Nat.mul_one]
    rcases Nat.eq_zero_or_pos digits with rfl | nonzero
    · simp
    · have := (Nat.log2_lt (k := layout.fractionBits + 1) (by omega : digits ≠ 0)).mpr
        (by rw [Nat.pow_succ]; omega)
      omega
  · have width : (digits * 2 ^ shift).log2 = layout.fractionBits + shift := by
      refine (Nat.log2_eq_iff (Nat.ne_of_gt (Nat.mul_pos (by omega) (Nat.two_pow_pos _)))).mpr ?_
      rw [Nat.pow_add, Nat.add_right_comm, Nat.pow_add (n := shift), Nat.pow_succ]
      exact ⟨Nat.mul_le_mul_right _ leading,
        Nat.mul_lt_mul_of_pos_right (by omega) (Nat.two_pow_pos _)⟩
    omega

theorem pattern?_scaled {shift digits : Nat} (scaled : Scaled layout shift digits) :
    layout.pattern? (digits * 2 ^ shift) = some (shift * 2 ^ layout.fractionBits + digits) := by
  rw [pattern?, excess_scaled scaled]
  simp [Nat.mul_mod_left, Nat.mul_div_cancel _ (Nat.two_pow_pos shift), scaled.finite]

/-- Shifting the excess away leaves digits that fit, and that fill the fraction field if
there was any excess. -/
theorem div_excess_bounds (layout : Layout) (size : Nat) :
    size / 2 ^ layout.excess size < 2 * 2 ^ layout.fractionBits ∧
      (layout.excess size = 0 ∨ 2 ^ layout.fractionBits ≤ size / 2 ^ layout.excess size) := by
  rcases Nat.eq_zero_or_pos size with rfl | nonzero
  · have positive := Nat.two_pow_pos layout.fractionBits
    simp [excess, positive]
  have below : size < 2 ^ (size.log2 + 1) := Nat.lt_log2_self
  have width : size.log2 + 1 ≤ (layout.fractionBits + 1) + layout.excess size := by
    rw [excess]
    omega
  refine ⟨?_, ?_⟩
  · rw [Nat.div_lt_iff_lt_mul (Nat.two_pow_pos _), Nat.mul_comm 2, ← Nat.pow_succ, ← Nat.pow_add]
    exact Nat.lt_of_lt_of_le below (Nat.pow_le_pow_right Nat.two_pos width)
  · rcases Nat.eq_zero_or_pos (layout.excess size) with none | some
    · exact .inl none
    · right
      rw [Nat.le_div_iff_mul_le (Nat.two_pow_pos _), ← Nat.pow_add]
      have place : layout.fractionBits + layout.excess size = size.log2 := by
        rw [excess] at some ⊢
        omega
      rw [place]
      exact Nat.log2_self_le (Nat.ne_of_gt nonzero)

/-- Fewer digits, shifted as far, stand for a pattern too. -/
theorem exists_pattern?_of_le {shift digits fewer : Nat} (scaled : Scaled layout shift digits)
    (le : fewer ≤ digits) : ∃ pattern, layout.pattern? (fewer * 2 ^ shift) = some pattern := by
  obtain ⟨fits, leading, finite⟩ := scaled
  have excess_le : layout.excess (fewer * 2 ^ shift) ≤ shift := by
    rw [excess]
    rcases Nat.eq_zero_or_pos fewer with rfl | nonzero
    · simp
    · have below : fewer * 2 ^ shift < 2 ^ (layout.fractionBits + 1 + shift) := by
        rw [Nat.pow_add, Nat.pow_succ]
        exact Nat.mul_lt_mul_of_pos_right (by omega) (Nat.two_pow_pos shift)
      have := (Nat.log2_lt (Nat.ne_of_gt (Nat.mul_pos nonzero (Nat.two_pow_pos shift)))).mpr below
      omega
  obtain ⟨small, -⟩ := div_excess_bounds layout (fewer * 2 ^ shift)
  refine ⟨_, if_pos ⟨Nat.mod_eq_zero_of_dvd ?_, ?_⟩⟩
  · exact Nat.dvd_trans (Nat.pow_dvd_pow 2 excess_le) (Nat.dvd_mul_left _ _)
  · rcases Nat.lt_or_eq_of_le excess_le with less | same
    · -- A step of the exponent outweighs all digits.
      have step := Nat.mul_le_mul_right (2 ^ layout.fractionBits) (Nat.succ_le_of_lt less)
      rw [Nat.succ_mul] at step
      omega
    · rw [same, Nat.mul_div_cancel _ (Nat.two_pow_pos shift)]
      omega

theorem exists_scaled_of_pattern? {size pattern : Nat}
    (found : layout.pattern? size = some pattern) :
    ∃ shift digits, Scaled layout shift digits ∧ size = digits * 2 ^ shift ∧
      pattern = shift * 2 ^ layout.fractionBits + digits := by
  simp only [pattern?] at found
  split at found
  · rename_i exact
    obtain ⟨divides, finite⟩ := exact
    obtain ⟨fits, leading⟩ := div_excess_bounds layout size
    cases found
    exact ⟨layout.excess size, size / 2 ^ layout.excess size, ⟨fits, leading, finite⟩,
      (Nat.div_mul_cancel (Nat.dvd_of_mod_eq_zero divides)).symm, rfl⟩
  · cases found

/-- A finite pattern is found again from its magnitude. -/
theorem pattern?_magnitude {pattern : Nat} (finite : pattern < layout.infinityPattern) :
    layout.pattern? (layout.magnitude pattern) = some pattern := by
  obtain ⟨shift, digits, scaled, rfl⟩ := exists_scaled finite
  rw [magnitude_scaled scaled, pattern?_scaled scaled]

/-- A pattern that is found for a magnitude is finite and has that magnitude. -/
theorem magnitude_of_pattern? {size pattern : Nat} (found : layout.pattern? size = some pattern) :
    layout.magnitude pattern = size ∧ pattern < layout.infinityPattern := by
  obtain ⟨shift, digits, scaled, rfl, rfl⟩ := exists_scaled_of_pattern? found
  exact ⟨magnitude_scaled scaled, scaled.finite⟩

end IndexedStore.Layout
