/-
The integers among the decimals. A text that spells an integer spells a
numeral that has neither a point nor an exponent
(`SpellsInteger.exists_spellsNumeral`), and a numeral without them is
spelled as an integer is (`exists_spellsInteger`). So both readers read
the same number where they read one at all, and the decimal that comes
out has the magnitude for its coefficient and no exponent.

Its sign is the one that was written. An integer keeps no sign of its
zero, so the two differ at a zero with a minus sign and nowhere else
(`Decimal.ofInt_eq_iff`). A decimal is no 64-bit integer if it is
spelled with a point or an exponent, even if these change nothing, or if
it is too large (`readInt64?_eq_none_iff`).
-/
import Unformat.Proofs.Number.Numeral

namespace Unformat

-- ============================================== statement vocabulary

/-- A point or the mark of an exponent stands in a text. -/
def HasPointOrMark (cs : List Char) : Prop :=
  '.' ∈ cs ∨ 'e' ∈ cs ∨ 'E' ∈ cs

-- ============================================================ spelling

theorem SpellsInteger.not_hasPointOrMark {cs : List Char} {n : Int} (h : SpellsInteger cs n) :
    ¬ HasPointOrMark cs := by
  rintro (hmem | hmem | hmem)
  · exact absurd (h.characters _ hmem) (by decide)
  · exact absurd (h.characters _ hmem) (by decide)
  · exact absurd (h.characters _ hmem) (by decide)

/-- What spells an integer spells a numeral, and the decimal of the
numeral has the magnitude of the integer and the sign that was
written. -/
theorem SpellsInteger.exists_spellsNumeral {cs : List Char} {n : Int} (h : SpellsInteger cs n) :
    ∃ m, SpellsNumeral cs m ∧ m.decimal = ⟨m.negative, n.natAbs, 0⟩ ∧
      signed m.negative n.natAbs = n := by
  obtain ⟨hsign, hdigits⟩ := h
  have hspells := SpellsNumeral.mk hsign (.whole hdigits) .missing
  rw [List.append_nil] at hspells
  refine ⟨_, hspells, ?_, ?_⟩
  · simp only [Numeral.decimal, List.append_nil, List.length_nil]
    split <;> simp
  · simp only [signed]
    split <;> simp

/-- A numeral without a point and an exponent is spelled as an integer
is. -/
theorem exists_spellsInteger {cs : List Char} {m : Numeral} (h : SpellsNumeral cs m)
    (hplain : ¬ HasPointOrMark cs) : ∃ n, SpellsInteger cs n := by
  obtain ⟨hsign, hmantissa, htail⟩ := h
  cases htail with
  | missing =>
      cases hmantissa with
      | whole hwhole =>
          rw [List.append_nil]
          exact ⟨_, .mk hsign hwhole⟩
      | pointed hwhole hfraction => exact absurd (.inl (by simp)) hplain
      | fraction hfraction => exact absurd (.inl (by simp)) hplain
  | marked hmark hexponent =>
      rcases hmark with rfl | rfl
      · exact absurd (.inr (.inl (by simp))) hplain
      · exact absurd (.inr (.inr (by simp))) hplain

-- ============================================================= numbers

namespace Decimal

/-- Without an exponent a decimal is an integer with its sign. -/
theorem number_of_exponent_zero (negative : Bool) (k : Nat) :
    (⟨negative, k, 0⟩ : Decimal).number = signed negative k := by
  cases negative <;> simp [number, signed]

theorem number_ofInt (n : Int) : (ofInt n).number = n := by
  rw [ofInt, number_of_exponent_zero, signed_natAbs]

/-- The decimal of an integer is negative if the integer is, so only a
zero can have another sign. -/
theorem ofInt_eq_iff {negative : Bool} {n : Int} (h : signed negative n.natAbs = n) :
    ofInt n = ⟨negative, n.natAbs, 0⟩ ↔ ¬ (n = 0 ∧ negative = true) := by
  simp only [ofInt, mk.injEq, and_true]
  cases negative with
  | false =>
      have hn : ¬ n < 0 := by
        simp only [signed, Bool.false_eq_true, if_false] at h
        omega
      simp [hn]
  | true =>
      simp only [signed, if_true] at h
      simp only [decide_eq_true_eq, and_true]
      omega

/-- A 64-bit integer has far fewer digits than the limits admit. -/
theorem withinLimits_of_fitsInt64 {n : Int} (h : fitsInt64 n = true) (negative : Bool) :
    withinLimits ⟨negative, n.natAbs, 0⟩ = true := by
  have hrange := fitsInt64_iff.mp h
  have hlog : Nat.log 10 n.natAbs < 19 := Nat.log_lt_of_lt_pow' (by decide) (by omega)
  rw [withinLimits_iff]
  show (0 : Int) + Nat.log 10 n.natAbs ≤ 999999999999999999 ∧ -1999999999999999997 ≤ (0 : Int)
  omega

-- ============================================================== readers

/-- What spells an integer is read as the number that it spells. -/
theorem number_of_spellsInteger {cs : List Char} {n : Int} {d : Decimal} (h : SpellsInteger cs n)
    (hread : read? cs = some d) : d.number = n := by
  obtain ⟨m, hspells, hdecimal, hsigned⟩ := h.exists_spellsNumeral
  have hm : readUnbounded? cs = some m.decimal := readUnbounded?_eq_some_iff.mpr ⟨m, hspells, rfl⟩
  obtain rfl : m.decimal = d := by
    rw [read?, hm] at hread
    exact Option.some.inj (Option.filter_eq_some_iff.mp hread).1
  rw [hdecimal, number_of_exponent_zero, hsigned]

/-- A 64-bit integer is read as a decimal as well, with the sign that was
written. -/
theorem read?_of_readInt64? {cs : List Char} {n : Int} (h : readInt64? cs = some n) :
    ∃ negative, read? cs = some ⟨negative, n.natAbs, 0⟩ ∧
      (cs.head? = some '-' ↔ negative = true) ∧ signed negative n.natAbs = n := by
  rw [readInt64?_eq_filter, Option.filter_eq_some_iff, readInteger?_eq_some_iff] at h
  obtain ⟨hspells, hfits⟩ := h
  obtain ⟨m, hnumeral, hdecimal, hsigned⟩ := hspells.exists_spellsNumeral
  refine ⟨m.negative, ?_, head?_eq_minus_iff hnumeral, hsigned⟩
  rw [read?, Option.filter_eq_some_iff, readUnbounded?_eq_some_iff]
  exact ⟨⟨m, hnumeral, hdecimal⟩, withinLimits_of_fitsInt64 hfits m.negative⟩

end Decimal

/-- A text that is read as a decimal is read as a 64-bit integer as well,
unless a point or an exponent stands in it or the number is an integer
out of the range. -/
theorem readInt64?_eq_none_iff {cs : List Char} {d : Decimal} (h : Decimal.read? cs = some d) :
    readInt64? cs = none ↔
      HasPointOrMark cs ∨ ∃ n : ℤ, d.number = n ∧ ¬ (-2 ^ 63 ≤ n ∧ n ≤ 2 ^ 63 - 1) := by
  have hfits : ∀ {n}, fitsInt64 n = true ↔ -2 ^ 63 ≤ n ∧ n ≤ 2 ^ 63 - 1 := fun {n} => by
    rw [fitsInt64_iff]
    omega
  rw [readInt64?_eq_filter, Option.eq_none_iff_forall_ne_some]
  simp only [ne_eq, Option.filter_eq_some_iff, readInteger?_eq_some_iff, hfits]
  constructor
  · intro hnone
    by_cases hplain : HasPointOrMark cs
    · exact .inl hplain
    · obtain ⟨m, hspells, -⟩ :=
        Decimal.readUnbounded?_eq_some_iff.mp (Option.filter_eq_some_iff.mp h).1
      obtain ⟨n, hinteger⟩ := exists_spellsInteger hspells hplain
      exact .inr ⟨n, Decimal.number_of_spellsInteger hinteger h, fun hrange =>
        hnone n ⟨hinteger, hrange⟩⟩
  · rintro hor n ⟨hinteger, hrange⟩
    rcases hor with hmark | ⟨n', hnumber, hbeyond⟩
    · exact hinteger.not_hasPointOrMark hmark
    · have hn : n = n' :=
        Int.cast_injective ((Decimal.number_of_spellsInteger hinteger h).symm.trans hnumber)
      exact hbeyond (hn ▸ hrange)

end Unformat
