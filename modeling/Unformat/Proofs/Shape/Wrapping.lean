/-
Narrowing as arithmetic modulo 2 ^ 32. The range of a 32-bit type is a
window of 2 ^ 32 consecutive integers (`ElementType.Spans`), and in a
window every integer is congruent to exactly one (`Spans.eq_of_modEq`).
Wrapping goes to that one (`Value.fit_wrap_eq_some_iff`), so where an
integer goes depends on its residue alone (`Value.fit_wrap_congr`).

Everything else follows from there (`Value.narrowing_laws`): what keeps
residues may be done before or after wrapping, be it wrapping to the
other type or a sum, a difference or a product.
-/
import Mathlib.Data.Int.ModEq
import Unformat.Proofs.Shape.Narrowing

namespace Unformat

-- ============================================== statement vocabulary

/-- The 32-bit types, each with its least and its largest integer. -/
inductive ElementType.Spans : ElementType → (low high : Int) → Prop where
  | int32 : Spans .int32 (-2 ^ 31) (2 ^ 31 - 1)
  | uint32 : Spans .uint32 0 (2 ^ 32 - 1)

-- ============================================================ residues

theorem wrapSigned32_modEq (n : Int) : wrapSigned32 n ≡ n [ZMOD 2 ^ 32] := by
  unfold wrapSigned32 Int.ModEq
  omega

theorem wrapUnsigned32_modEq (n : Int) : wrapUnsigned32 n ≡ n [ZMOD 2 ^ 32] := by
  unfold wrapUnsigned32 Int.ModEq
  omega

namespace ElementType.Spans

variable {target : ElementType} {low high k m n : Int}

/-- A range holds one integer of each residue. -/
theorem eq_of_modEq (h : target.Spans low high) (hk : low ≤ k ∧ k ≤ high)
    (hm : low ≤ m ∧ m ≤ high) (hmod : k ≡ m [ZMOD 2 ^ 32]) : k = m := by
  unfold Int.ModEq at hmod
  cases h with
  | int32 => omega
  | uint32 => omega

/-- Wrapping goes to an integer of the range with the same residue. -/
theorem exists_fit_wrap (h : target.Spans low high) (n : Int) :
    ∃ m, (Value.int n).fit target .wrap = .ok (some (.int m)) ∧ (low ≤ m ∧ m ≤ high) ∧
      m ≡ n [ZMOD 2 ^ 32] := by
  cases h with
  | int32 => exact ⟨wrapSigned32 n, rfl, wrapSigned32_range n, wrapSigned32_modEq n⟩
  | uint32 => exact ⟨wrapUnsigned32 n, rfl, wrapUnsigned32_range n, wrapUnsigned32_modEq n⟩

theorem outOfRange_iff (h : target.Spans low high) :
    (Value.int n).outOfRange target = true ↔ ¬ (low ≤ n ∧ n ≤ high) := by
  cases h with
  | int32 => rw [Value.outOfRange_signed, Ne, wrapSigned32_eq_self_iff]
  | uint32 => rw [Value.outOfRange_unsigned, Ne, wrapUnsigned32_eq_self_iff]

end ElementType.Spans

-- =========================================================== narrowing

namespace Value

variable {target other : ElementType} {low high low' high' : Int}

theorem fit_wrap_eq_some_iff (h : target.Spans low high) {m n : Int} :
    (Value.int n).fit target .wrap = .ok (some (.int m)) ↔
      (low ≤ m ∧ m ≤ high) ∧ m ≡ n [ZMOD 2 ^ 32] := by
  obtain ⟨w, hfit, hrange, hmod⟩ := h.exists_fit_wrap n
  rw [hfit]
  constructor
  · intro heq
    cases heq
    exact ⟨hrange, hmod⟩
  · intro hm
    rw [h.eq_of_modEq hm.1 hrange (hm.2.trans hmod.symm)]

/-- Integers with the same residue are wrapped to the same. -/
theorem fit_wrap_congr (h : target.Spans low high) {a b : Int} (hab : a ≡ b [ZMOD 2 ^ 32]) :
    (Value.int a).fit target .wrap = (Value.int b).fit target .wrap := by
  obtain ⟨w, hfit, hrange, hmod⟩ := h.exists_fit_wrap b
  rw [hfit, fit_wrap_eq_some_iff h]
  exact ⟨hrange, hmod.trans hab.symm⟩

/-- If narrowing is checked, the integers of the range stay as they are,
and no others fit. -/
theorem fit_checked_int (h : target.Spans low high) (n : Int) :
    (Value.int n).fit target .checked =
      .ok (if low ≤ n ∧ n ≤ high then some (.int n) else none) := by
  rw [fit_checked]
  by_cases hrange : low ≤ n ∧ n ≤ high
  · rw [if_neg (mt h.outOfRange_iff.mp (not_not_intro hrange)), if_pos hrange,
      fit_wrap_eq_some_iff h]
    exact ⟨hrange, Int.ModEq.refl n⟩
  · rw [if_pos (h.outOfRange_iff.mpr hrange), if_neg hrange]

/-- Wrapping to a 32-bit type gives the one integer of its range that is
congruent to the given one modulo 2 ^ 32. If narrowing is checked, an
integer stays as it is if it lies in the range, and does not fit
otherwise. What was wrapped to a 32-bit type before, this one or the
other, is wrapped as if it had not been, and so are sums, differences and
products of what was wrapped. -/
theorem narrowing_laws (h : target.Spans low high) (hother : other.Spans low' high') :
    (∀ n, ∃ m, (Value.int n).fit target .wrap = .ok (some (.int m)) ∧ low ≤ m ∧ m ≤ high ∧
      m ≡ n [ZMOD 2 ^ 32] ∧
      ∀ k, low ≤ k → k ≤ high → k ≡ n [ZMOD 2 ^ 32] → k = m) ∧
    (∀ n, (Value.int n).fit target .checked =
      .ok (if low ≤ n ∧ n ≤ high then some (.int n) else none)) ∧
    (∀ n m, (Value.int n).fit other .wrap = .ok (some (.int m)) →
      (Value.int m).fit target .wrap = (Value.int n).fit target .wrap) ∧
    (∀ a a' b b', (Value.int a).fit other .wrap = .ok (some (.int a')) →
      (Value.int b).fit other .wrap = .ok (some (.int b')) →
      (Value.int (a' + b')).fit target .wrap = (Value.int (a + b)).fit target .wrap ∧
      (Value.int (a' - b')).fit target .wrap = (Value.int (a - b)).fit target .wrap ∧
      (Value.int (a' * b')).fit target .wrap = (Value.int (a * b)).fit target .wrap) := by
  refine ⟨fun n => ?_, fit_checked_int h, fun n m hm => ?_, fun a a' b b' ha hb => ?_⟩
  · obtain ⟨m, hfit, hrange, hmod⟩ := h.exists_fit_wrap n
    refine ⟨m, hfit, hrange.1, hrange.2, hmod, fun k hlow hhigh hk => ?_⟩
    exact h.eq_of_modEq ⟨hlow, hhigh⟩ hrange (hk.trans hmod.symm)
  · exact fit_wrap_congr h ((fit_wrap_eq_some_iff hother).mp hm).2
  · have hmodA := ((fit_wrap_eq_some_iff hother).mp ha).2
    have hmodB := ((fit_wrap_eq_some_iff hother).mp hb).2
    exact ⟨fit_wrap_congr h (hmodA.add hmodB), fit_wrap_congr h (hmodA.sub hmodB),
      fit_wrap_congr h (hmodA.mul hmodB)⟩

/-- The integer behind the signed range is wrapped to its other end, and
from the unsigned range the same way. -/
theorem narrowing_laws_at_the_end :
    ElementType.Spans .int32 (-2 ^ 31) (2 ^ 31 - 1) ∧
      ElementType.Spans .uint32 0 (2 ^ 32 - 1) ∧
      (Value.int (2 ^ 31)).fit .int32 .wrap = .ok (some (.int (-2 ^ 31))) ∧
      (Value.int (2 ^ 31)).fit .int32 .checked = .ok none ∧
      (Value.int (-2 ^ 31)).fit .uint32 .wrap = .ok (some (.int (2 ^ 31))) ∧
      (Value.int (2 ^ 31 * 2 ^ 31)).fit .int32 .wrap
        = (Value.int (-2 ^ 31 * -2 ^ 31)).fit .int32 .wrap := by
  have hsigned : (Value.int (2 ^ 31)).fit .int32 .wrap = .ok (some (.int (-2 ^ 31))) := rfl
  have hunsigned : (Value.int (-2 ^ 31)).fit .uint32 .wrap = .ok (some (.int (2 ^ 31))) := rfl
  obtain ⟨-, hchecked, -, hops⟩ := narrowing_laws .int32 .uint32
  exact ⟨.int32, .uint32, hsigned, hchecked (2 ^ 31), hunsigned,
    (hops _ _ _ _ hunsigned hunsigned).2.2⟩

end Value

end Unformat
