/-
Which number is nearest to a quotient. It depends on the quotient alone,
not on its two parts (`roundedBits_congr`), so decimals of one magnitude
have one nearest number (`decimalBits_congr`). And what is off a number by
less than a part in 2 ^ 54 of it has this number for its nearest
(`roundedBits_of_close`, `decimalBits_of_close`).

Up to rounding a number and a quotient close to it have their last digits
at one place. The exception is a quotient just below a power of two, where
the places are twice as dense as above: it is rounded up to the power, from
no more than half of the smaller step below it. That is why the bound is
2 ^ 54, and not the 2 ^ 53 that is enough everywhere else.
-/
import Mathlib.Tactic.Linarith
import Unformat.Proofs.Number.Overflow

namespace Unformat

namespace Binary64

-- ============================================== statement vocabulary

/-- The place of the last digit of a magnitude, counted from the last place
of all. -/
def bitsPlace (magnitude : Nat) : Nat :=
  magnitude / hiddenBit - 1

/-- The digits of a magnitude as one number. -/
def bitsDigits (magnitude : Nat) : Nat :=
  if magnitude / hiddenBit = 0 then magnitude % hiddenBit else hiddenBit + magnitude % hiddenBit

/-- A magnitude in units of the least number above zero. -/
def bitsUnits (magnitude : Nat) : Nat :=
  bitsDigits magnitude * 2 ^ bitsPlace magnitude

/-- A magnitude as a number. -/
def bitsNumber (magnitude : Nat) : ℚ :=
  bitsUnits magnitude / unitsPerOne

-- ========================================================== magnitudes

variable {m num den : Nat}

/-- The bits of a magnitude are its place and its digits. -/
theorem bits_eq (m : Nat) : bitsPlace m * hiddenBit + bitsDigits m = m := by
  have hdiv : hiddenBit * (m / hiddenBit) + m % hiddenBit = m := Nat.div_add_mod m hiddenBit
  unfold bitsPlace bitsDigits
  split
  next hzero =>
    rw [hzero] at hdiv ⊢
    omega
  next hfield =>
    obtain ⟨field, hfield⟩ := Nat.exists_eq_succ_of_ne_zero hfield
    rw [hfield, Nat.mul_succ, Nat.mul_comm] at hdiv
    rw [hfield, Nat.succ_sub_one]
    omega

theorem bitsDigits_lt (m : Nat) : bitsDigits m < 2 ^ 53 := by
  have hmod : m % hiddenBit < hiddenBit := Nat.mod_lt m (by decide)
  have hhidden : hiddenBit = 2 ^ 52 := rfl
  unfold bitsDigits
  split <;> omega

/-- Above the last place of all a magnitude has 53 digits. -/
theorem le_bitsDigits (h : bitsPlace m ≠ 0) : 2 ^ 52 ≤ bitsDigits m := by
  have hfield : m / hiddenBit ≠ 0 := fun hzero => h (by rw [bitsPlace, hzero])
  rw [bitsDigits, if_neg hfield]
  exact Nat.le_add_right hiddenBit _

theorem bitsUnits_pos (h : m ≠ 0) : 0 < bitsUnits m := by
  refine Nat.mul_pos (Nat.pos_of_ne_zero fun hzero => ?_) (Nat.two_pow_pos _)
  by_cases hplace : bitsPlace m = 0
  · have hbits := bits_eq m
    rw [hplace, hzero] at hbits
    omega
  · have hle := le_bitsDigits hplace
    omega

-- =========================================================== quotients

/-- A quotient has one last place. -/
theorem IsLastPlace.unique {place place' : Nat} (h : IsLastPlace num den place)
    (h' : IsLastPlace num den place') : place = place' := by
  rcases Nat.lt_trichotomy place place' with hlt | heq | hgt
  · exact absurd (h.lt_of_le (Nat.le_refl place)) (Nat.not_lt.mpr (h'.le_of_lt hlt))
  · exact heq
  · exact absurd (h'.lt_of_le (Nat.le_refl place')) (Nat.not_lt.mpr (h.le_of_lt hgt))

section Congr

variable {num' den' place : Nat}

theorem IsLastPlace.congr (hden : 0 < den) (hden' : 0 < den') (hsame : num * den' = num' * den)
    (h : IsLastPlace num den place) : IsLastPlace num' den' place := by
  have hleft : ∀ a, num * unitsPerOne * den' * a = num' * unitsPerOne * den * a := fun a => by
    rw [Nat.mul_right_comm num, hsame, Nat.mul_right_comm num']
  have hright : ∀ k, den * 2 ^ k * den' = den' * 2 ^ k * den := fun k => by
    rw [Nat.mul_right_comm, Nat.mul_comm den, Nat.mul_right_comm]
  have hscaled := hleft 1
  rw [Nat.mul_one, Nat.mul_one] at hscaled
  constructor
  · apply Nat.lt_of_mul_lt_mul_right (a := den)
    rw [← hscaled, ← hright]
    exact Nat.mul_lt_mul_of_pos_right h.below hden'
  · refine h.above.imp_right fun habove => ?_
    apply Nat.le_of_mul_le_mul_right _ hden
    rw [← hscaled, ← hright]
    exact Nat.mul_le_mul_right den' habove

/-- The bits of a rounded quotient depend on the quotient alone. -/
theorem roundedBits_congr (hnum : num ≠ 0) (hden : den ≠ 0) (hnum' : num' ≠ 0) (hden' : den' ≠ 0)
    (hsame : num * den' = num' * den) : roundedBits num den = roundedBits num' den' := by
  have hpos := Nat.pos_of_ne_zero hden
  have hpos' := Nat.pos_of_ne_zero hden'
  have hplace := (isLastPlace_lastPlace hnum hden).congr hpos hpos' hsame
  have hunique := hplace.unique (isLastPlace_lastPlace hnum' hden')
  rw [roundedBits_eq, roundedBits_eq, hunique]
  refine congrArg (lastPlace num' den' * hiddenBit + ·) ?_
  rw [← roundDiv_mul_mul_right hpos' (num * unitsPerOne), ← roundDiv_mul_mul_right hpos
    (num' * unitsPerOne), Nat.mul_right_comm num, hsame, Nat.mul_right_comm num',
    Nat.mul_right_comm den, Nat.mul_comm den den', Nat.mul_right_comm den']

end Congr

/-- What is off an integer by less than one half is rounded to it. -/
theorem roundDiv_of_close (hlow : 2 * (m * den) < 2 * num + den)
    (hhigh : 2 * num < 2 * (m * den) + den) : roundDiv num den = m := by
  have hdiv : den * (num / den) + num % den = num := Nat.div_add_mod num den
  have hmod : num % den < den := Nat.mod_lt num (by omega)
  rcases Nat.lt_trichotomy (num / den) m with hlt | heq | hgt
  · -- the quotient is the integer below, and what is left more than one half
    have hle : (num / den + 1) * den ≤ m * den := Nat.mul_le_mul_right den hlt
    rw [Nat.add_mul, Nat.one_mul, Nat.mul_comm (num / den)] at hle
    have hnext : num / den + 1 = m := by
      by_contra hne
      have hfar : (num / den + 2) * den ≤ m * den := Nat.mul_le_mul_right den (by omega)
      rw [Nat.add_mul, Nat.mul_comm (num / den)] at hfar
      omega
    have heq : m * den = den * (num / den) + den := by
      rw [← hnext, Nat.add_mul, Nat.one_mul, Nat.mul_comm]
    simp only [roundDiv]
    rw [if_neg (by omega), if_pos (by omega), hnext]
  · rw [heq, Nat.mul_comm] at hdiv
    simp only [roundDiv]
    rw [if_pos (by omega), heq]
  · have hle : (m + 1) * den ≤ num / den * den := Nat.mul_le_mul_right den hgt
    rw [Nat.add_mul, Nat.one_mul, Nat.mul_comm (num / den)] at hle
    omega

/-- A quotient that is off a number by less than a part in 2 ^ 54 of it is
rounded to the number. -/
theorem roundedBits_of_close (hnum : num ≠ 0) (hden : den ≠ 0)
    (hlow : (2 ^ 54 - 1) * (bitsUnits m * den) < 2 ^ 54 * (num * unitsPerOne))
    (hhigh : 2 ^ 54 * (num * unitsPerOne) < (2 ^ 54 + 1) * (bitsUnits m * den)) :
    roundedBits num den = m := by
  have hlast := isLastPlace_lastPlace hnum hden
  have hbits := bits_eq m
  have hdigits := bitsDigits_lt m
  have hhidden : hiddenBit = 2 ^ 52 := rfl
  have hunits : bitsUnits m * den = bitsDigits m * (den * 2 ^ bitsPlace m) := by
    rw [bitsUnits, Nat.mul_assoc, Nat.mul_comm den]
  rw [roundedBits_eq]
  rw [hunits] at hlow hhigh
  generalize lastPlace num den = place at hlast ⊢
  rcases Nat.lt_trichotomy place (bitsPlace m) with hlt | rfl | hgt
  · -- the quotient is just below a power of two, and that is the number
    obtain ⟨k, hk⟩ := Nat.exists_eq_add_of_lt hlt
    have hfirst : 2 ^ 52 ≤ bitsDigits m := le_bitsDigits (by omega)
    have hpower : den * 2 ^ bitsPlace m = 2 * (2 ^ k * (den * 2 ^ place)) := by
      rw [hk, two_pow_mul, ← two_pow_mul den (place + k) 1, Nat.pow_one]
    have hbelow := hlast.lt_of_le (Nat.le_refl place)
    have hscale : 0 < den * 2 ^ place := Nat.mul_pos hlast.pos (Nat.two_pow_pos place)
    generalize num * unitsPerOne = x at hlow hhigh hbelow ⊢
    rw [hpower] at hlow hhigh
    generalize den * 2 ^ place = step at hlow hhigh hbelow hscale ⊢
    have hone : k = 0 := by
      by_contra hne
      have htwo : 2 ^ 1 ≤ 2 ^ k := Nat.pow_le_pow_right (by decide) (by omega)
      have hle : 2 ^ 52 * (2 * (2 ^ 1 * step)) ≤ bitsDigits m * (2 * (2 ^ k * step)) :=
        Nat.mul_le_mul hfirst (Nat.mul_le_mul_left 2 (Nat.mul_le_mul_right step htwo))
      omega
    rw [hone, Nat.pow_zero, Nat.one_mul] at hlow hhigh
    have hleast : bitsDigits m = 2 ^ 52 := by
      by_contra hne
      have hle : (2 ^ 52 + 1) * (2 * step) ≤ bitsDigits m * (2 * step) :=
        Nat.mul_le_mul_right _ (by omega)
      omega
    rw [hleast] at hlow hhigh hbits
    have hround : roundDiv x step = 2 ^ 53 := roundDiv_of_close (by omega) (by omega)
    rw [hround, ← hbits, hk, hone, hhidden]
    omega
  · have hle : bitsDigits m * (den * 2 ^ bitsPlace m) ≤ (2 ^ 53 - 1) * (den * 2 ^ bitsPlace m) :=
      Nat.mul_le_mul_right _ (by omega)
    have hround : roundDiv (num * unitsPerOne) (den * 2 ^ bitsPlace m) = bitsDigits m :=
      roundDiv_of_close (by omega) (by omega)
    rw [hround, hbits]
  · -- 53 digits do not reach a quotient with more of them
    have hle : bitsDigits m * (den * 2 ^ bitsPlace m) ≤ (2 ^ 53 - 1) * (den * 2 ^ bitsPlace m) :=
      Nat.mul_le_mul_right _ (by omega)
    have habove := hlast.le_of_lt hgt
    omega

-- ============================================================ decimals

variable {d d' : Decimal}

/-- A decimal that is neither zero nor far away is rounded as a quotient
that has its magnitude. -/
theorem exists_quotient (hzero : d.coefficient ≠ 0) :
    ∃ num den : Nat, num ≠ 0 ∧ den ≠ 0 ∧ |d.number| = num / den ∧
      (-400 ≤ d.adjusted → d.adjusted ≤ 400 → decimalBits d = roundedBits num den) := by
  unfold decimalBits
  rw [if_neg hzero]
  by_cases hexponent : 0 ≤ d.exponent
  · refine ⟨d.coefficient * 10 ^ d.exponent.toNat, 1,
      Nat.mul_ne_zero hzero (pow_ne_zero _ (by decide)), Nat.one_ne_zero, ?_, fun hlow hhigh => ?_⟩
    · rw [Decimal.abs_number_of_nonneg hexponent, Nat.cast_one, div_one]
    · rw [if_neg (by omega), if_neg (by omega), if_pos hexponent]
      rfl
  · refine ⟨d.coefficient, 10 ^ (-d.exponent).toNat, hzero, pow_ne_zero _ (by decide), ?_,
      fun hlow hhigh => ?_⟩
    · exact Decimal.abs_number_of_neg (not_le.mp hexponent)
    · rw [if_neg (by omega), if_neg (by omega), if_neg hexponent]
      rfl

theorem abs_number_eq_zero_iff (d : Decimal) : |d.number| = 0 ↔ d.coefficient = 0 := by
  rw [Decimal.abs_number, mul_eq_zero, Nat.cast_eq_zero]
  exact or_iff_left (zpow_ne_zero _ (by norm_num))

/-- The place of the first digit depends on the magnitude alone. -/
theorem adjusted_le_of_abs_number_le (hzero : d.coefficient ≠ 0)
    (hle : |d.number| ≤ |d'.number|) : d.adjusted ≤ d'.adjusted := by
  have hpow : (10 : ℚ) ^ d.adjusted < 10 ^ (d'.adjusted + 1) :=
    ((Decimal.zpow_le_abs_number hzero).trans hle).trans_lt d'.abs_number_lt_zpow
  exact Int.lt_add_one_iff.mp ((zpow_lt_zpow_iff_right₀ (by norm_num)).mp hpow)

/-- Decimals of one magnitude have one nearest number. -/
theorem decimalBits_congr (h : |d.number| = |d'.number|) : decimalBits d = decimalBits d' := by
  have hiff : d.coefficient = 0 ↔ d'.coefficient = 0 := by
    rw [← abs_number_eq_zero_iff, h, abs_number_eq_zero_iff]
  by_cases hzero : d.coefficient = 0
  · rw [decimalBits, if_pos hzero, decimalBits, if_pos (hiff.mp hzero)]
  have hzero' := fun h => hzero (hiff.mpr h)
  have hadjusted : d.adjusted = d'.adjusted :=
    le_antisymm (adjusted_le_of_abs_number_le hzero h.le)
      (adjusted_le_of_abs_number_le hzero' h.ge)
  obtain ⟨num, den, hnum, hden, hnumber, hbits⟩ := exists_quotient hzero
  obtain ⟨num', den', hnum', hden', hnumber', hbits'⟩ := exists_quotient hzero'
  by_cases hrange : -400 ≤ d.adjusted ∧ d.adjusted ≤ 400
  · have hsame : num * den' = num' * den := by
      rw [hnumber, hnumber', div_eq_div_iff (Nat.cast_ne_zero.mpr hden)
        (Nat.cast_ne_zero.mpr hden')] at h
      exact_mod_cast h
    rw [hbits hrange.1 hrange.2, hbits' (hadjusted ▸ hrange.1) (hadjusted ▸ hrange.2),
      roundedBits_congr hnum hden hnum' hden' hsame]
  · unfold decimalBits
    rw [if_neg hzero, if_neg hzero', hadjusted]
    rw [hadjusted] at hrange
    split
    · rfl
    · rw [if_pos (by omega), if_pos (by omega)]

/-- A magnitude above zero lies well within the places at which decimals
are rounded as quotients. -/
theorem bitsNumber_bounds (hzero : m ≠ 0) (hfinite : m < infinityBits) :
    2 * (10 : ℚ) ^ (-400 : Int) ≤ bitsNumber m ∧ 2 * bitsNumber m ≤ 10 ^ (400 : Int) := by
  have hone : (0 : ℚ) < unitsPerOne := Nat.cast_pos.mpr unitsPerOne_pos
  have hpos : (1 : ℚ) ≤ bitsUnits m := Nat.one_le_cast.mpr (bitsUnits_pos hzero)
  obtain ⟨top, htop⟩ : ∃ top, top = 2045 := ⟨2045, rfl⟩
  have hplace : bitsPlace m ≤ top := by
    have hdiv : m / hiddenBit < 2047 := Nat.div_lt_of_lt_mul hfinite
    unfold bitsPlace
    omega
  have hunits : bitsUnits m ≤ 2 ^ 53 * 2 ^ top :=
    Nat.mul_le_mul (Nat.le_of_lt (bitsDigits_lt m)) (Nat.pow_le_pow_right (by decide) hplace)
  have hlow : (2 : ℚ) * unitsPerOne ≤ 10 ^ 400 := by
    exact_mod_cast (by decide +kernel : 2 * unitsPerOne ≤ 10 ^ 400)
  have hhigh : (2 : ℚ) * bitsUnits m ≤ 10 ^ 400 * unitsPerOne := by
    have hbound : 2 * (2 ^ 53 * 2 ^ top) ≤ 10 ^ 400 * unitsPerOne := by
      rw [htop]
      decide +kernel
    exact_mod_cast (Nat.mul_le_mul_left 2 hunits).trans hbound
  rw [bitsNumber, zpow_neg, zpow_ofNat]
  generalize (unitsPerOne : ℚ) = one at *
  constructor
  · rw [le_div_iff₀ hone, mul_right_comm, ← div_eq_mul_inv]
    exact ((div_le_one₀ (by norm_num)).mpr hlow).trans hpos
  · rwa [← mul_div_assoc, div_le_iff₀ hone]

/-- A decimal that is off a number by less than a part in 2 ^ 54 of it has
the number for its nearest. -/
theorem decimalBits_of_close (hzero : m ≠ 0) (hfinite : m < infinityBits)
    (hclose : 2 ^ 54 * |(|d.number| - bitsNumber m)| < bitsNumber m) : decimalBits d = m := by
  obtain ⟨hlow, hhigh⟩ := bitsNumber_bounds hzero hfinite
  have hpositive : 0 < bitsNumber m := by
    have hleast : (0 : ℚ) < 10 ^ (-400 : Int) := zpow_pos (by norm_num) _
    linarith
  have hbelow : (2 ^ 54 - 1) * bitsNumber m < 2 ^ 54 * |d.number| := by
    have hside := neg_abs_le (|d.number| - bitsNumber m)
    linarith
  have habove : 2 ^ 54 * |d.number| < (2 ^ 54 + 1) * bitsNumber m := by
    have hside := le_abs_self (|d.number| - bitsNumber m)
    linarith
  have hcoefficient : d.coefficient ≠ 0 := fun h => by
    rw [(abs_number_eq_zero_iff d).mpr h] at hbelow
    linarith
  obtain ⟨num, den, hnum, hden, hnumber, hbits⟩ := exists_quotient hcoefficient
  have hfirst : -400 ≤ d.adjusted := by
    have hpow : (10 : ℚ) ^ (-400 : Int) < 10 ^ (d.adjusted + 1) :=
      lt_trans (by linarith) d.abs_number_lt_zpow
    have hlt := (zpow_lt_zpow_iff_right₀ (by norm_num)).mp hpow
    omega
  have hlast : d.adjusted ≤ 400 := by
    have hlt : |d.number| < 2 * bitsNumber m := by linarith
    have hpow := (Decimal.zpow_le_abs_number hcoefficient).trans_lt (hlt.trans_le hhigh)
    exact ((zpow_lt_zpow_iff_right₀ (by norm_num)).mp hpow).le
  rw [hbits hfirst hlast]
  have hone : (0 : ℚ) < unitsPerOne := Nat.cast_pos.mpr unitsPerOne_pos
  have hpos : (0 : ℚ) < den := Nat.cast_pos.mpr (Nat.pos_of_ne_zero hden)
  rw [hnumber, bitsNumber, ← mul_div_assoc, ← mul_div_assoc] at hbelow habove
  rw [div_lt_div_iff₀ hone hpos] at hbelow
  rw [div_lt_div_iff₀ hpos hone] at habove
  apply roundedBits_of_close hnum hden
  · have hcast : (((2 ^ 54 - 1 : Nat) * (bitsUnits m * den) : Nat) : ℚ) <
        ((2 ^ 54 * (num * unitsPerOne) : Nat) : ℚ) := by
      push_cast
      linarith
    exact Nat.cast_lt.mp hcast
  · have hcast : ((2 ^ 54 * (num * unitsPerOne) : Nat) : ℚ) <
        (((2 ^ 54 + 1) * (bitsUnits m * den) : Nat) : ℚ) := by
      push_cast
      linarith
    exact Nat.cast_lt.mp hcast

end Binary64

end Unformat
