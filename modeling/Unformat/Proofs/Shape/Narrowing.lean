/-
Narrowing to a 32-bit type. Wrapping always ends in the range of the
type, and leaves an integer alone exactly if it was there before
(`wrapSigned32_eq_self_iff`, `wrapUnsigned32_eq_self_iff`). So the two
ways to narrow differ for the integers out of range alone
(`Value.fit_checked`), and wrapping never fails (`Value.exists_fit_wrap`).
-/
import Mathlib.Algebra.Group.Int.Defs
import Unformat.Shape.Element

namespace Unformat

-- ============================================== statement vocabulary

/-- A value is an integer, the type a 32-bit one, and the integer is none
of the type. -/
def Value.outOfRange (target : ElementType) : Value → Bool
  | .int n =>
      match target with
      | .int32 => n < -2 ^ 31 || 2 ^ 31 - 1 < n
      | .uint32 => n < 0 || 2 ^ 32 - 1 < n
      | _ => false
  | _ => false

-- ============================================================ wrapping

theorem wrapSigned32_range (n : Int) :
    -2 ^ 31 ≤ wrapSigned32 n ∧ wrapSigned32 n ≤ 2 ^ 31 - 1 := by
  unfold wrapSigned32
  omega

theorem wrapUnsigned32_range (n : Int) :
    0 ≤ wrapUnsigned32 n ∧ wrapUnsigned32 n ≤ 2 ^ 32 - 1 := by
  unfold wrapUnsigned32
  omega

theorem wrapSigned32_eq_self_iff {n : Int} :
    wrapSigned32 n = n ↔ -2 ^ 31 ≤ n ∧ n ≤ 2 ^ 31 - 1 := by
  unfold wrapSigned32
  omega

theorem wrapUnsigned32_eq_self_iff {n : Int} :
    wrapUnsigned32 n = n ↔ 0 ≤ n ∧ n ≤ 2 ^ 32 - 1 := by
  unfold wrapUnsigned32
  omega

-- =========================================================== narrowing

/-- Narrowing gives the wrapped integer or none. -/
theorem eq_wrapped_of_narrow {narrowing : Narrowing} {wrapped n m : Int}
    (h : narrow narrowing wrapped n = some m) : m = wrapped := by
  unfold narrow at h
  split at h
  · cases h
  · exact (Option.some.inj h).symm

theorem narrow_self (narrowing : Narrowing) (n : Int) : narrow narrowing n n = some n := by
  unfold narrow
  rw [if_neg fun h => h.2 rfl]

theorem narrow_wrap (wrapped n : Int) : narrow .wrap wrapped n = some wrapped := rfl

theorem narrow_checked (wrapped n : Int) :
    narrow .checked wrapped n = if wrapped = n then some wrapped else none := by
  unfold narrow
  by_cases h : wrapped = n
  · rw [if_pos h, if_neg fun hne => hne.2 h]
  · rw [if_neg h, if_pos ⟨rfl, h⟩]

namespace Value

variable {v : Value} {target : ElementType}

theorem outOfRange_signed {n : Int} :
    (Value.int n).outOfRange .int32 = true ↔ wrapSigned32 n ≠ n := by
  rw [Ne, wrapSigned32_eq_self_iff, outOfRange, Bool.or_eq_true, decide_eq_true_eq,
    decide_eq_true_eq]
  omega

theorem outOfRange_unsigned {n : Int} :
    (Value.int n).outOfRange .uint32 = true ↔ wrapUnsigned32 n ≠ n := by
  rw [Ne, wrapUnsigned32_eq_self_iff, outOfRange, Bool.or_eq_true, decide_eq_true_eq,
    decide_eq_true_eq]
  omega

/-- Only for two types are integers ever out of range. -/
theorem target_of_outOfRange (h : v.outOfRange target = true) :
    target = .int32 ∨ target = .uint32 := by
  cases v with
  | int n =>
      cases target with
      | int32 => exact .inl rfl
      | uint32 => exact .inr rfl
      | _ => cases h
  | _ => cases h

/-- If narrowing is checked, integers out of range do not fit, and all
other values fit as they do if it is not. -/
theorem fit_checked (v : Value) (target : ElementType) :
    v.fit target .checked = if v.outOfRange target then .ok none else v.fit target .wrap := by
  cases v with
  | int n =>
      cases target with
      | int32 =>
          simp only [fit, narrow_checked, narrow_wrap, outOfRange_signed]
          by_cases h : wrapSigned32 n = n <;> simp [h]
      | uint32 =>
          simp only [fit, narrow_checked, narrow_wrap, outOfRange_unsigned]
          by_cases h : wrapUnsigned32 n = n <;> simp [h]
      | _ => rfl
  | _ => cases target <;> rfl

/-- If narrowing is not checked, every value fits a 32-bit type. -/
theorem exists_fit_wrap (v : Value) (h : target = .int32 ∨ target = .uint32) :
    ∃ u, v.fit target .wrap = .ok (some u) := by
  rcases h with rfl | rfl
  · cases v <;> exact ⟨_, rfl⟩
  · cases v <;> exact ⟨_, rfl⟩

end Value

end Unformat
