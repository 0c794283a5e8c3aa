/-
Which decimals are too large for a floating-point number: those from the
bound on at which rounding ends at an infinity
(`Binary64.isFinite_ofDecimal_iff`).

The place of the first digit tells the magnitude of a decimal up to a
factor of ten (`Decimal.zpow_le_abs_number`, `Decimal.abs_number_lt_zpow`).
Where it is hundreds of places away this settles the matter, without any
power of ten. Everywhere else the magnitude is a quotient of two natural
numbers, and rounding of quotients settles it.
-/
import Mathlib.Algebra.Order.Ring.Abs
import Unformat.Proofs.Number.Numeral
import Unformat.Proofs.Number.Rounding

namespace Unformat

-- ========================================================== magnitudes

namespace Decimal

variable {d : Decimal}

theorem abs_number (d : Decimal) : |d.number| = d.coefficient * (10 : ℚ) ^ d.exponent := by
  have hpow : (0 : ℚ) < 10 ^ d.exponent := zpow_pos (by norm_num) _
  have hsign : |(if d.negative then -1 else 1 : ℚ)| = 1 := by
    cases d.negative with
    | false => exact abs_one
    | true => exact (abs_neg 1).trans abs_one
  rw [number, abs_mul, abs_mul, hsign, one_mul, abs_of_pos hpow, Nat.abs_cast]

/-- A decimal is no less than one at the place of its first digit. -/
theorem zpow_le_abs_number (h : d.coefficient ≠ 0) : (10 : ℚ) ^ d.adjusted ≤ |d.number| := by
  have hlog : (10 : ℚ) ^ Nat.log 10 d.coefficient ≤ d.coefficient := by
    exact_mod_cast Nat.pow_log_le_self 10 h
  rw [abs_number, adjusted_eq, add_comm, zpow_add₀ (by norm_num), zpow_natCast]
  exact mul_le_mul_of_nonneg_right hlog (zpow_nonneg (by norm_num) _)

/-- A decimal is less than one at the place in front of its first
digit. -/
theorem abs_number_lt_zpow (d : Decimal) : |d.number| < (10 : ℚ) ^ (d.adjusted + 1) := by
  have hlog : (d.coefficient : ℚ) < 10 ^ (Nat.log 10 d.coefficient + 1) := by
    exact_mod_cast Nat.lt_pow_succ_log_self (by decide) d.coefficient
  rw [abs_number, adjusted_eq, show d.exponent + (Nat.log 10 d.coefficient : Int) + 1
      = (Nat.log 10 d.coefficient + 1 : Nat) + d.exponent from by omega,
    zpow_add₀ (by norm_num), zpow_natCast]
  exact mul_lt_mul_of_pos_right hlog (zpow_pos (by norm_num) _)

/-- Without a negative exponent a decimal is a natural number. -/
theorem abs_number_of_nonneg (h : 0 ≤ d.exponent) :
    |d.number| = (d.coefficient * 10 ^ d.exponent.toNat : Nat) := by
  obtain ⟨k, hk⟩ := Int.eq_ofNat_of_zero_le h
  rw [abs_number, hk, Int.toNat_natCast, zpow_natCast]
  push_cast
  rfl

/-- With a negative exponent a decimal is a quotient of two natural
numbers. -/
theorem abs_number_of_neg (h : d.exponent < 0) :
    |d.number| = d.coefficient / (10 ^ (-d.exponent).toNat : Nat) := by
  obtain ⟨k, hk⟩ : ∃ k : Nat, d.exponent = -k := ⟨(-d.exponent).toNat, by omega⟩
  rw [abs_number, hk, neg_neg, Int.toNat_natCast, zpow_neg, zpow_natCast, div_eq_mul_inv]
  push_cast
  rfl

end Decimal

-- ============================================================ rounding

namespace Binary64

theorem overflowBound_le_zpow {e : Int} (h : 400 < e) : (overflowBound : ℚ) ≤ 10 ^ e := by
  have hbound : (overflowBound : ℚ) ≤ 10 ^ 400 := by
    exact_mod_cast (by decide +kernel : overflowBound ≤ 10 ^ 400)
  calc (overflowBound : ℚ) ≤ 10 ^ 400 := hbound
    _ = 10 ^ (400 : Int) := (zpow_natCast 10 400).symm
    _ ≤ 10 ^ e := zpow_le_zpow_right₀ (by norm_num) (by omega)

theorem one_le_overflowBound : (1 : ℚ) ≤ overflowBound := by
  exact_mod_cast (by decide +kernel : 1 ≤ overflowBound)

/-- The bits of a decimal that is rounded as a quotient. -/
theorem infinityBits_le_quotientBits_iff {d : Decimal} (hzero : d.coefficient ≠ 0) :
    (infinityBits ≤
      if 0 ≤ d.exponent then roundedBits (d.coefficient * Nat.pow 10 d.exponent.toNat) 1
      else roundedBits d.coefficient (Nat.pow 10 (-d.exponent).toNat)) ↔
      (overflowBound : ℚ) ≤ |d.number| := by
  by_cases hexponent : 0 ≤ d.exponent
  · have hnum : d.coefficient * 10 ^ d.exponent.toNat ≠ 0 :=
      Nat.mul_ne_zero hzero (pow_ne_zero _ (by decide))
    have hbits := infinityBits_le_roundedBits_iff hnum Nat.one_ne_zero
    rw [Nat.mul_one] at hbits
    rw [if_pos hexponent, Decimal.abs_number_of_nonneg hexponent, Nat.cast_le]
    exact hbits
  · have hden : 10 ^ (-d.exponent).toNat ≠ 0 := pow_ne_zero _ (by decide)
    have hpos : (0 : ℚ) < (10 ^ (-d.exponent).toNat : Nat) :=
      Nat.cast_pos.mpr (Nat.pos_of_ne_zero hden)
    rw [if_neg hexponent, Decimal.abs_number_of_neg (not_le.mp hexponent), le_div_iff₀ hpos,
      ← Nat.cast_mul, Nat.cast_le]
    exact infinityBits_le_roundedBits_iff hzero hden

/-- The bits of a decimal reach those of an infinity if its magnitude
reaches the bound. -/
theorem infinityBits_le_decimalBits_iff (d : Decimal) :
    infinityBits ≤ decimalBits d ↔ (overflowBound : ℚ) ≤ |d.number| := by
  unfold decimalBits
  split
  next hzero =>
    have hnumber : |d.number| = 0 := by rw [Decimal.abs_number, hzero, Nat.cast_zero, zero_mul]
    rw [hnumber]
    exact iff_of_false (by decide) fun h => absurd (one_le_overflowBound.trans h) (by norm_num)
  next hzero =>
    split
    next hlarge =>
      have hle := (overflowBound_le_zpow hlarge).trans (Decimal.zpow_le_abs_number hzero)
      exact iff_of_true (Nat.le_refl _) hle
    next =>
      split
      next hsmall =>
        have hlt : |d.number| < overflowBound := by
          calc |d.number| < 10 ^ (d.adjusted + 1) := d.abs_number_lt_zpow
            _ ≤ 10 ^ (0 : Int) := zpow_le_zpow_right₀ (by norm_num) (by omega)
            _ ≤ overflowBound := one_le_overflowBound
        exact iff_of_false (by decide) (not_le.mpr hlt)
      next => exact infinityBits_le_quotientBits_iff hzero

/-- The number nearest to a decimal is finite exactly if the magnitude of
the decimal is below the bound. -/
theorem isFinite_ofDecimal_iff (d : Decimal) :
    (ofDecimal d).isFinite = true ↔ |d.number| < overflowBound := by
  rw [ofDecimal, isFinite_clamped, ← Nat.not_le, infinityBits_le_decimalBits_iff, not_le]

end Binary64

end Unformat
