/-
From which magnitude on rounding ends at an infinity
(`infinityBits_le_roundedBits_iff`). The largest number has 53 digits, all
of them one, in front of 971 zeros; the middle between it and the power
of two behind it (`overflowBound`) is rounded to the even side, which is
the power, and of that there is no number.

Which digits of a quotient are kept is said in units of the least number
above zero (`IsLastPlace`): 53 from the first one on, but none behind the
last place of all. So the bits of a rounded quotient tell its place, and
there are three cases: below the place of the largest number the bits do
not reach those of an infinity, above it they do, and there it depends on
whether rounding carries into one digit more (`le_roundDiv_iff_of_even`).

Hence every 64-bit integer has a nearest number
(`exists_ofInt?_eq_some`), and an integer of more than 1024 binary digits
has none (`ofInt?_eq_none`).
-/
import Mathlib.Algebra.Group.Nat.Defs
import Unformat.Number.Binary64
import Unformat.Proofs.Number.Digits

namespace Unformat

namespace Binary64

-- ============================================== statement vocabulary

/-- The least magnitude that is too large for a number: the middle
between the largest number and the power of two behind it. -/
def overflowBound : Nat :=
  2 ^ 1024 - 2 ^ 970

/-- The place of the last digit that is kept of the quotient `num / den`,
counted from the last place of all. -/
def lastPlace (num den : Nat) : Nat :=
  (lastExponent num den + 1074).toNat

/-- From the first digit of the quotient to a place there are no more than
53 digits, and no less unless the place is the last of all. -/
structure IsLastPlace (num den place : Nat) : Prop where
  below : num * unitsPerOne < den * 2 ^ (place + 53)
  above : place = 0 ∨ den * 2 ^ (place + 52) ≤ num * unitsPerOne

-- =========================================================== quotients

variable {num den : Nat}

/-- Rounding goes up by one at most. -/
theorem roundDiv_le (num den : Nat) : roundDiv num den ≤ num / den + 1 := by
  simp only [roundDiv]
  split
  · omega
  · split
    · exact Nat.le_refl _
    · omega

/-- Rounding goes down by less than one. -/
theorem le_roundDiv (num den : Nat) : num / den ≤ roundDiv num den := by
  simp only [roundDiv]
  split
  · exact Nat.le_refl _
  · split <;> omega

/-- Rounding does not see a common factor. -/
theorem roundDiv_mul_mul_right {c : Nat} (hc : 0 < c) (num den : Nat) :
    roundDiv (num * c) (den * c) = roundDiv num den := by
  have hbelow : 2 * (num % den * c) < den * c ↔ 2 * (num % den) < den := by
    rw [← Nat.mul_assoc]
    exact Nat.mul_lt_mul_right hc
  have habove : den * c < 2 * (num % den * c) ↔ den < 2 * (num % den) := by
    rw [← Nat.mul_assoc]
    exact Nat.mul_lt_mul_right hc
  simp only [roundDiv, Nat.mul_div_mul_right num den hc, Nat.mul_mod_mul_right, hbelow, habove]

/-- To an even number a quotient is rounded up from the middle below it
on. -/
theorem le_roundDiv_iff_of_even {m : Nat} (hden : 0 < den) (hm : 0 < m) (heven : m % 2 = 0) :
    m ≤ roundDiv num den ↔ (2 * m - 1) * den ≤ 2 * num := by
  have hdiv : den * (num / den) + num % den = num := Nat.div_add_mod num den
  have hmod : num % den < den := Nat.mod_lt num hden
  rcases Nat.lt_trichotomy m (num / den + 1) with hlt | heq | hgt
  · -- the quotient has reached the number
    have hle : (2 * m - 1) * den ≤ 2 * (num / den) * den := Nat.mul_le_mul_right den (by omega)
    have hcomm : 2 * (num / den) * den = 2 * (den * (num / den)) := by
      rw [Nat.mul_assoc, Nat.mul_comm (num / den)]
    have hround := le_roundDiv num den
    constructor
    · intro _
      omega
    · intro _
      omega
  · -- the number is the next one, and the one below it is odd
    have hcomm : (2 * m - 1) * den = 2 * (den * (num / den)) + den := by
      rw [show 2 * m - 1 = 2 * (num / den) + 1 from by omega, Nat.add_mul, Nat.one_mul,
        Nat.mul_assoc, Nat.mul_comm (num / den)]
    simp only [roundDiv]
    split
    · omega
    · split <;> omega
  · -- the number is further away than rounding goes
    have hle : (2 * (num / den) + 3) * den ≤ (2 * m - 1) * den :=
      Nat.mul_le_mul_right den (by omega)
    have hcomm : (2 * (num / den) + 3) * den = 2 * (den * (num / den)) + 3 * den := by
      rw [Nat.add_mul, Nat.mul_assoc, Nat.mul_comm (num / den)]
    have hround := roundDiv_le num den
    constructor
    · intro _
      omega
    · intro _
      omega

-- ======================================================== last places

theorem lastExponent_eq (num den : Nat) :
    lastExponent num den = max (-1074) ((num.log2 : Int) - den.log2 -
      if num * 2 ^ den.log2 < den * 2 ^ num.log2 then 53 else 52) := by
  have hbelow : (if 0 ≤ (num.log2 : Int) - den.log2
      then num < den <<< ((num.log2 : Int) - den.log2).toNat
      else num <<< (-((num.log2 : Int) - den.log2)).toNat < den) ↔
      num * 2 ^ den.log2 < den * 2 ^ num.log2 := by
    by_cases hle : den.log2 ≤ num.log2
    · obtain ⟨k, hk⟩ := Nat.exists_eq_add_of_le hle
      rw [if_pos (by omega), show ((num.log2 : Int) - den.log2).toNat = k from by omega,
        Nat.shiftLeft_eq, hk, Nat.add_comm, Nat.pow_add, ← Nat.mul_assoc]
      exact (Nat.mul_lt_mul_right (Nat.two_pow_pos den.log2)).symm
    · obtain ⟨k, hk⟩ := Nat.exists_eq_add_of_le (Nat.le_of_not_le hle)
      rw [if_neg (by omega), show (-((num.log2 : Int) - den.log2)).toNat = k from by omega,
        Nat.shiftLeft_eq, hk, Nat.add_comm, Nat.pow_add, ← Nat.mul_assoc]
      exact (Nat.mul_lt_mul_right (Nat.two_pow_pos num.log2)).symm
  simp only [lastExponent, hbelow]
  split <;> rfl

/-- The last exponent is 52 places behind the first digit of the
quotient, which `shift` brings to the place of the first digit of the
dividend. -/
theorem exists_lastExponent_eq (hnum : num ≠ 0) (hden : den ≠ 0) :
    ∃ shift : Nat, lastExponent num den = max (-1074) ((num.log2 : Int) - den.log2 - shift) ∧
      den * 2 ^ (num.log2 + 52) ≤ num * 2 ^ (den.log2 + shift) ∧
      num * 2 ^ (den.log2 + shift) < den * 2 ^ (num.log2 + 53) := by
  have hnumLow : 2 ^ num.log2 ≤ num := Nat.log2_self_le hnum
  have hnumHigh : num < 2 ^ (num.log2 + 1) := Nat.lt_log2_self
  have hdenLow : 2 ^ den.log2 ≤ den := Nat.log2_self_le hden
  have hdenHigh : den < 2 ^ (den.log2 + 1) := Nat.lt_log2_self
  have hlast := lastExponent_eq num den
  by_cases hbelow : num * 2 ^ den.log2 < den * 2 ^ num.log2
  · rw [if_pos hbelow] at hlast
    refine ⟨53, hlast, ?_, ?_⟩
    · calc den * 2 ^ (num.log2 + 52) ≤ 2 ^ (den.log2 + 1) * 2 ^ (num.log2 + 52) :=
            Nat.mul_le_mul_right _ (Nat.le_of_lt hdenHigh)
        _ = 2 ^ num.log2 * 2 ^ (den.log2 + 53) := by
            rw [← Nat.pow_add, ← Nat.pow_add]
            congr 1
            omega
        _ ≤ num * 2 ^ (den.log2 + 53) := Nat.mul_le_mul_right _ hnumLow
    · rw [Nat.pow_add, Nat.pow_add, ← Nat.mul_assoc, ← Nat.mul_assoc]
      exact Nat.mul_lt_mul_of_pos_right hbelow (Nat.two_pow_pos 53)
  · rw [if_neg hbelow] at hlast
    refine ⟨52, hlast, ?_, ?_⟩
    · rw [Nat.pow_add, Nat.pow_add, ← Nat.mul_assoc, ← Nat.mul_assoc]
      exact Nat.mul_le_mul_right _ (Nat.le_of_not_lt hbelow)
    · calc num * 2 ^ (den.log2 + 52) < 2 ^ (num.log2 + 1) * 2 ^ (den.log2 + 52) :=
            Nat.mul_lt_mul_of_pos_right hnumHigh (Nat.two_pow_pos _)
        _ = 2 ^ den.log2 * 2 ^ (num.log2 + 53) := by
            rw [← Nat.pow_add, ← Nat.pow_add]
            congr 1
            omega
        _ ≤ den * 2 ^ (num.log2 + 53) := Nat.mul_le_mul_right _ hdenLow

theorem unitsPerOne_eq : unitsPerOne = 2 ^ 1074 := by
  decide +kernel

theorem isLastPlace_lastPlace (hnum : num ≠ 0) (hden : den ≠ 0) :
    IsLastPlace num den (lastPlace num den) := by
  obtain ⟨shift, hlast, hlow, hhigh⟩ := exists_lastExponent_eq hnum hden
  obtain ⟨units, hunits⟩ : ∃ units, units = 1074 := ⟨1074, rfl⟩
  have hone : unitsPerOne = 2 ^ units := hunits ▸ unitsPerOne_eq
  have hplace : lastPlace num den = num.log2 + units - (den.log2 + shift) := by
    rw [lastPlace, hlast]
    omega
  generalize lastPlace num den = place at hplace
  have hscale : 0 < 2 ^ (den.log2 + shift) := Nat.two_pow_pos _
  constructor
  · apply Nat.lt_of_mul_lt_mul_right (a := 2 ^ (den.log2 + shift))
    calc num * unitsPerOne * 2 ^ (den.log2 + shift)
        = num * 2 ^ (den.log2 + shift) * 2 ^ units := by rw [hone, Nat.mul_right_comm]
      _ < den * 2 ^ (num.log2 + 53) * 2 ^ units :=
          Nat.mul_lt_mul_of_pos_right hhigh (Nat.two_pow_pos units)
      _ = den * 2 ^ (num.log2 + 53 + units) := by rw [Nat.mul_assoc, ← Nat.pow_add]
      _ ≤ den * 2 ^ (place + 53 + (den.log2 + shift)) :=
          Nat.mul_le_mul_left den (Nat.pow_le_pow_right (by decide) (by omega))
      _ = den * 2 ^ (place + 53) * 2 ^ (den.log2 + shift) := by rw [Nat.mul_assoc, ← Nat.pow_add]
  · by_cases hzero : place = 0
    · exact .inl hzero
    · right
      apply Nat.le_of_mul_le_mul_right _ hscale
      calc den * 2 ^ (place + 52) * 2 ^ (den.log2 + shift)
          = den * 2 ^ (num.log2 + 52) * 2 ^ units := by
            rw [Nat.mul_assoc, ← Nat.pow_add, Nat.mul_assoc, ← Nat.pow_add,
              show place + 52 + (den.log2 + shift) = num.log2 + 52 + units from by omega]
        _ ≤ num * 2 ^ (den.log2 + shift) * 2 ^ units := Nat.mul_le_mul_right _ hlow
        _ = num * unitsPerOne * 2 ^ (den.log2 + shift) := by rw [hone, Nat.mul_right_comm]

/-- The digits that are kept are those of the quotient in units of the
last place. -/
theorem roundedBits_eq (num den : Nat) :
    roundedBits num den = lastPlace num den * hiddenBit +
      roundDiv (num * unitsPerOne) (den * 2 ^ lastPlace num den) := by
  have hleast : -1074 ≤ lastExponent num den := by
    rw [lastExponent_eq]
    exact Int.le_max_left ..
  simp only [roundedBits, lastPlace, unitsPerOne_eq]
  generalize lastExponent num den = e at hleast
  refine congrArg ((e + 1074).toNat * hiddenBit + ·) ?_
  by_cases he : 0 ≤ e
  · rw [if_pos he, Nat.shiftLeft_eq, show (e + 1074).toNat = e.toNat + 1074 from by omega,
      Nat.pow_add 2 e.toNat 1074, ← Nat.mul_assoc, roundDiv_mul_mul_right (Nat.two_pow_pos 1074)]
  · obtain ⟨k, hk⟩ : ∃ k : Nat, e = -k := ⟨(-e).toNat, by omega⟩
    rw [if_neg he, Nat.shiftLeft_eq, show (-e).toNat = k from by omega]
    have hsplit : 2 ^ 1074 = 2 ^ k * 2 ^ (e + 1074).toNat := by
      rw [← Nat.pow_add, show k + (e + 1074).toNat = 1074 from by omega]
    rw [hsplit, ← Nat.mul_assoc, roundDiv_mul_mul_right (Nat.two_pow_pos _)]

theorem unitsPerOne_pos : 0 < unitsPerOne := by
  decide +kernel

theorem overflowBound_mul_unitsPerOne :
    overflowBound * unitsPerOne = (2 ^ 54 - 1) * 2 ^ 2044 := by
  decide +kernel

theorem two_pow_mul (den place k : Nat) : 2 ^ k * (den * 2 ^ place) = den * 2 ^ (place + k) := by
  rw [Nat.pow_add, Nat.mul_left_comm, Nat.mul_comm (2 ^ k)]

namespace IsLastPlace

variable {place : Nat}

theorem pos (h : IsLastPlace num den place) : 0 < den := by
  rcases Nat.eq_zero_or_pos den with rfl | hpos
  · have hbelow := h.below
    rw [Nat.zero_mul] at hbelow
    exact absurd hbelow (Nat.not_lt_zero _)
  · exact hpos

/-- No more than 53 digits are kept. -/
theorem div_lt (h : IsLastPlace num den place) :
    num * unitsPerOne / (den * 2 ^ place) < 2 ^ 53 := by
  rw [Nat.div_lt_iff_lt_mul (Nat.mul_pos h.pos (Nat.two_pow_pos place)), two_pow_mul]
  exact h.below

/-- Above the last place of all there are 53 digits. -/
theorem le_div (h : IsLastPlace num den place) (hplace : place ≠ 0) :
    2 ^ 52 ≤ num * unitsPerOne / (den * 2 ^ place) := by
  rw [Nat.le_div_iff_mul_le (Nat.mul_pos h.pos (Nat.two_pow_pos place)), two_pow_mul]
  exact h.above.resolve_left hplace

theorem lt_of_le {top : Nat} (h : IsLastPlace num den place) (hle : place ≤ top) :
    num * unitsPerOne < 2 ^ 53 * (den * 2 ^ top) := by
  rw [two_pow_mul]
  calc num * unitsPerOne < den * 2 ^ (place + 53) := h.below
    _ ≤ den * 2 ^ (top + 53) :=
        Nat.mul_le_mul_left den (Nat.pow_le_pow_right (by decide) (by omega))

theorem le_of_lt {top : Nat} (h : IsLastPlace num den place) (hlt : top < place) :
    2 ^ 53 * (den * 2 ^ top) ≤ num * unitsPerOne := by
  rw [two_pow_mul]
  calc den * 2 ^ (top + 53) ≤ den * 2 ^ (place + 52) :=
        Nat.mul_le_mul_left den (Nat.pow_le_pow_right (by decide) (by omega))
    _ ≤ num * unitsPerOne := h.above.resolve_left (by omega)

end IsLastPlace

/-- From the bound on, and only from there, a quotient is rounded to an
infinity. -/
theorem infinityBits_le_roundedBits_iff (hnum : num ≠ 0) (hden : den ≠ 0) :
    infinityBits ≤ roundedBits num den ↔ overflowBound * den ≤ num := by
  have hplace := isLastPlace_lastPlace hnum hden
  obtain ⟨top, htop⟩ : ∃ top, top = 2044 := ⟨2044, rfl⟩
  have hscaled : overflowBound * unitsPerOne = (2 ^ 54 - 1) * 2 ^ top :=
    htop ▸ overflowBound_mul_unitsPerOne
  have hbound : overflowBound * den ≤ num ↔
      (2 ^ 54 - 1) * (den * 2 ^ top) ≤ num * unitsPerOne := by
    rw [← Nat.mul_le_mul_right_iff unitsPerOne_pos, Nat.mul_right_comm,
      hscaled, Nat.mul_right_comm, Nat.mul_assoc]
  have hnext : den * 2 ^ (top + 1) = 2 * (den * 2 ^ top) := (two_pow_mul den top 1).symm
  have hinfinity : infinityBits = 2047 * 2 ^ 52 := rfl
  have hhidden : hiddenBit = 2 ^ 52 := rfl
  rw [hbound, roundedBits_eq, hinfinity, hhidden]
  generalize lastPlace num den = place at hplace
  have hlt := hplace.div_lt
  rcases Nat.lt_trichotomy place (top + 1) with hlow | rfl | hhigh
  · -- 53 digits do not reach the bound, nor do the bits an infinity
    have hround := roundDiv_le (num * unitsPerOne) (den * 2 ^ place)
    have hunits := hplace.lt_of_le (Nat.le_of_lt_succ hlow)
    constructor
    · intro hle
      omega
    · intro hle
      omega
  · -- the bits reach an infinity if rounding carries into a 54th digit
    have hcarry : 2 ^ 53 ≤ roundDiv (num * unitsPerOne) (den * 2 ^ (top + 1)) ↔
        (2 * 2 ^ 53 - 1) * (den * 2 ^ (top + 1)) ≤ 2 * (num * unitsPerOne) :=
      le_roundDiv_iff_of_even (Nat.mul_pos hplace.pos (Nat.two_pow_pos (top + 1))) (by decide)
        (by decide)
    constructor
    · intro hle
      omega
    · intro hle
      omega
  · -- 53 digits there are beyond the bound, and the bits beyond an infinity
    have hround := le_roundDiv (num * unitsPerOne) (den * 2 ^ place)
    have hdigits := hplace.le_div (by omega)
    have hunits := hplace.le_of_lt hhigh
    rw [hnext] at hunits
    constructor
    · intro hle
      omega
    · intro hle
      omega

-- ============================================================ numbers

theorem isFinite_clamped {negative : Bool} {bits : Nat} :
    (clamped negative bits).isFinite = true ↔ bits < infinityBits := by
  rw [isFinite, decide_eq_true_eq]
  show min bits infinityBits < infinityBits ↔ bits < infinityBits
  omega

/-- Only integers from the bound on have no nearest number. -/
theorem ofInt?_eq_none_iff {n : Int} : ofInt? n = none ↔ overflowBound ≤ n.natAbs := by
  unfold ofInt?
  by_cases hzero : n = 0
  · rw [if_pos hzero, hzero]
    constructor
    · intro h
      cases h
    · intro h
      exact absurd h (by decide +kernel)
  · have hbits := infinityBits_le_roundedBits_iff (Int.natAbs_ne_zero.mpr hzero) Nat.one_ne_zero
    rw [Nat.mul_one] at hbits
    rw [if_neg hzero, ← hbits, ← Nat.not_lt]
    simp

/-- The number nearest to an integer is no infinity. -/
theorem isFinite_of_ofInt? {n : Int} {x : Binary64} (h : ofInt? n = some x) :
    x.isFinite = true := by
  unfold ofInt? at h
  split at h
  · rw [← Option.some.inj h]
    decide
  · obtain ⟨hbits, hx⟩ := Option.ite_none_right_eq_some.mp h
    rw [← Option.some.inj hx]
    exact isFinite_clamped.mpr hbits

/-- A 64-bit integer has a nearest floating-point number. -/
theorem exists_ofInt?_eq_some {n : Int} (h : fitsInt64 n = true) : ∃ x, ofInt? n = some x := by
  have hrange := fitsInt64_iff.mp h
  have hbound : 0x10000000000000000 ≤ overflowBound := by decide +kernel
  apply Option.ne_none_iff_exists'.mp
  intro hnone
  have hlarge := ofInt?_eq_none_iff.mp hnone
  omega

/-- An integer of more than 1024 binary digits is too large for a
floating-point number. -/
theorem ofInt?_eq_none {n : Int} (hlog : 1024 ≤ n.natAbs.log2) : ofInt? n = none := by
  have hne : n.natAbs ≠ 0 := by
    intro hzero
    rw [hzero] at hlog
    exact absurd hlog (by decide)
  apply ofInt?_eq_none_iff.mpr
  calc overflowBound ≤ 2 ^ 1024 := by decide +kernel
    _ ≤ 2 ^ n.natAbs.log2 := Nat.pow_le_pow_right (by decide) hlog
    _ ≤ n.natAbs := Nat.log2_self_le hne

end Binary64

end Unformat
