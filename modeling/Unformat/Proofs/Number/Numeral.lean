/-
Decimals as they are spelled, said without a reader (`SpellsNumeral`): a
sign, a mantissa and an exponent, of which the first and the last may be
missing. The mantissa has digits before a point, behind it or on both
sides, or no point at all.

The reader without bounds reads these and nothing else, and makes of the
parts the decimal that the numeral stands for
(`Decimal.readUnbounded?_eq_some_iff`). It takes the parts off the front
one by one. Each part ends where the next one starts, since neither a
sign nor a point nor the mark of an exponent is a digit, so the two
directions meet at one lemma for each part:

- digits and a point, in `span_of_spellsMantissa` and
  `exists_spellsMantissa`;
- the exponent, in `readExponent?_eq_some_iff`.

That the decimal is the number which was written (`Numeral.number_eq`)
is a matter of the fraction alone: its digits go into the coefficient,
and their count comes off the exponent. Numbers beyond the limits are
told by the place of their first digit (`Decimal.adjusted_eq`).
-/
import Mathlib.Data.Nat.Log
import Mathlib.Algebra.Order.Field.Rat
import Mathlib.Tactic.FieldSimp
import Mathlib.Tactic.Ring
import Unformat.Number.Decimal
import Unformat.Proofs.Number.Spelled

namespace Unformat

-- ============================================== statement vocabulary

/-- The parts of a decimal as it is spelled. -/
structure Numeral where
  negative : Bool
  whole : List Char
  fraction : List Char
  exponent : Int

/-- Digits with a point behind them, in front of them, between them or
nowhere. -/
inductive SpellsMantissa : (cs whole fraction : List Char) → Prop where
  | whole {whole : List Char} (hwhole : IsDigits whole) : SpellsMantissa whole whole []
  | pointed {whole fraction : List Char} (hwhole : IsDigits whole)
      (hfraction : ∀ c ∈ fraction, c.isDigit = true) :
      SpellsMantissa (whole ++ '.' :: fraction) whole fraction
  | fraction {fraction : List Char} (hfraction : IsDigits fraction) :
      SpellsMantissa ('.' :: fraction) [] fraction

/-- The exponent at the end of a numeral, which may be missing. -/
inductive SpellsExponent : (cs : List Char) → (exponent : Int) → Prop where
  | missing : SpellsExponent [] 0
  | marked {mark : Char} {cs : List Char} {exponent : Int} (hmark : mark = 'e' ∨ mark = 'E')
      (hexponent : SpellsInteger cs exponent) : SpellsExponent (mark :: cs) exponent

/-- A text that spells a numeral. -/
inductive SpellsNumeral : (cs : List Char) → Numeral → Prop where
  | mk {sign mantissa tail whole fraction : List Char} {negative : Bool} {exponent : Int}
      (hsign : SpellsSign sign negative) (hmantissa : SpellsMantissa mantissa whole fraction)
      (htail : SpellsExponent tail exponent) :
      SpellsNumeral (sign ++ (mantissa ++ tail)) ⟨negative, whole, fraction, exponent⟩

/-- The decimal of a numeral: all digits of the mantissa, and an exponent
that makes up for those behind the point. -/
def Numeral.decimal (m : Numeral) : Decimal :=
  ⟨m.negative, placeValue (m.whole ++ m.fraction), m.exponent - m.fraction.length⟩

/-- The number that a numeral spells: what stands before the point, and
what stands behind it as a fraction, scaled by the exponent. -/
def Numeral.number (m : Numeral) : ℚ :=
  (if m.negative then -1 else 1) *
    (placeValue m.whole + placeValue m.fraction / 10 ^ m.fraction.length) * 10 ^ m.exponent

/-- The number of a decimal. -/
def Decimal.number (d : Decimal) : ℚ :=
  (if d.negative then -1 else 1) * d.coefficient * 10 ^ d.exponent

-- ========================================================== characters

theorem SpellsMantissa.characters {cs whole fraction : List Char}
    (h : SpellsMantissa cs whole fraction) : ∀ c ∈ cs, c.isDigit = true ∨ c = '.' := by
  have hpoint : ∀ {fraction : List Char}, (∀ c ∈ fraction, c.isDigit = true) →
      ∀ c ∈ '.' :: fraction, c.isDigit = true ∨ c = '.' := fun hfraction c hc =>
    (List.mem_cons.mp hc).symm.imp_left (hfraction c)
  cases h with
  | whole hwhole => exact fun c hc => .inl (hwhole.2 c hc)
  | pointed hwhole hfraction =>
      exact List.forall_mem_append.mpr ⟨fun c hc => .inl (hwhole.2 c hc), hpoint hfraction⟩
  | fraction hfraction => exact hpoint hfraction.2

/-- A numeral is spelled with digits and five marks alone. -/
theorem SpellsNumeral.characters {cs : List Char} {m : Numeral} (h : SpellsNumeral cs m) :
    ∀ c ∈ cs, c.isDigit = true ∨ c ∈ ['+', '-', '.', 'e', 'E'] := by
  obtain ⟨hsign, hmantissa, htail⟩ := h
  intro c hc
  rcases List.mem_append.mp hc with hc | hc
  · exact .inr (List.mem_append_left ['.', 'e', 'E'] (hsign.characters c hc))
  rcases List.mem_append.mp hc with hc | hc
  · rcases hmantissa.characters c hc with hdigit | rfl
    · exact .inl hdigit
    · exact .inr (by decide)
  · cases htail with
    | missing => cases hc
    | marked hmark hexponent =>
        rcases List.mem_cons.mp hc with rfl | hc
        · rcases hmark with rfl | rfl
          · exact .inr (by decide)
          · exact .inr (by decide)
        · exact (hexponent.characters c hc).imp_right (List.mem_append_left ['.', 'e', 'E'])

-- ============================================================== values

/-- A numeral and its decimal are one number. -/
theorem Numeral.number_eq (m : Numeral) : m.decimal.number = m.number := by
  have hten : (10 : ℚ) ≠ 0 := by norm_num
  have hcoefficient : (placeValue (m.whole ++ m.fraction) : ℚ)
      = (placeValue m.whole + placeValue m.fraction / 10 ^ m.fraction.length)
        * 10 ^ m.fraction.length := by
    rw [placeValue_append, add_mul, div_mul_cancel₀ _ (pow_ne_zero _ hten)]
    push_cast
    rfl
  show (if m.negative then -1 else 1) * (placeValue (m.whole ++ m.fraction) : ℚ)
    * 10 ^ (m.exponent - m.fraction.length) = _
  rw [hcoefficient, zpow_sub₀ hten, zpow_natCast, Numeral.number]
  field_simp

/-- Zero has one digit. -/
theorem length_toDigits_eq (n : Nat) : (Nat.toDigits 10 n).length = Nat.log 10 n + 1 := by
  apply Nat.le_antisymm
  · rw [Nat.length_toDigits_le_iff (by decide) (Nat.succ_pos _)]
    exact Nat.lt_pow_succ_log_self (by decide) n
  · apply Nat.lt_of_not_le
    intro hle
    have hpos : 0 < (Nat.toDigits 10 n).length := Nat.length_toDigits_pos
    have hlt : n < 10 ^ Nat.log 10 n :=
      (Nat.length_toDigits_le_iff (by decide) (Nat.lt_of_lt_of_le hpos hle)).mp hle
    have hne : n ≠ 0 := by
      rintro rfl
      simp at hle
    exact Nat.not_lt.mpr (Nat.pow_log_le_self 10 hne) hlt

namespace Decimal

theorem adjusted_eq (d : Decimal) : d.adjusted = d.exponent + Nat.log 10 d.coefficient := by
  rw [adjusted, digits, length_toDigits_eq]
  omega

theorem withinLimits_iff {d : Decimal} :
    d.withinLimits = true ↔ d.exponent + Nat.log 10 d.coefficient ≤ 999999999999999999 ∧
      -1999999999999999997 ≤ d.exponent := by
  rw [withinLimits, Bool.and_eq_true, decide_eq_true_eq, decide_eq_true_eq, adjusted_eq]
  exact Iff.rfl

-- ============================================================== digits

/-- Digits end where something else follows. -/
theorem spanDigits_append {ds rest : List Char} (hds : ∀ c ∈ ds, c.isDigit = true)
    (hrest : ∀ c ∈ rest.head?, c.isDigit = false) : spanDigits (ds ++ rest) = (ds, rest) := by
  unfold spanDigits
  rw [List.takeWhile_append_of_pos hds, List.dropWhile_append_of_pos hds]
  cases rest with
  | nil => simp
  | cons c rest =>
      have hc := hrest c rfl
      rw [List.takeWhile_cons_of_neg (by simp [hc]), List.dropWhile_cons_of_neg (by simp [hc]),
        List.append_nil]

/-- Digits are taken off the front, and nothing else. -/
theorem eq_append_of_spanDigits {cs ds rest : List Char} (h : spanDigits cs = (ds, rest)) :
    (∀ c ∈ ds, c.isDigit = true) ∧ cs = ds ++ rest := by
  obtain ⟨rfl, rfl⟩ := Prod.mk.inj h
  exact ⟨List.all_eq_true.mp List.all_takeWhile, List.takeWhile_append_dropWhile.symm⟩

-- ============================================================ mantissas

/-- A mantissa starts with a digit or a point, so with no sign. -/
theorem exists_cons_of_spellsMantissa {cs whole fraction : List Char}
    (h : SpellsMantissa cs whole fraction) : ∃ c rest, cs = c :: rest ∧ c ≠ '-' ∧ c ≠ '+' := by
  cases h with
  | whole hwhole => exact hwhole.exists_cons
  | pointed hwhole hfraction =>
      obtain ⟨c, rest, rfl, hminus, hplus⟩ := hwhole.exists_cons
      exact ⟨c, rest ++ '.' :: fraction, rfl, hminus, hplus⟩
  | fraction hfraction => exact ⟨'.', fraction, rfl, by decide, by decide⟩

theorem spanFraction_of_ne {c : Char} (hc : c ≠ '.') (cs : List Char) :
    spanFraction (c :: cs) = ([], c :: cs) := by
  simp [spanFraction, hc]

/-- A mantissa ends where something starts that is neither a digit nor a
point. -/
theorem span_of_spellsMantissa {cs whole fraction tail : List Char}
    (h : SpellsMantissa cs whole fraction)
    (htail : ∀ c ∈ tail.head?, c.isDigit = false ∧ c ≠ '.') :
    ∃ rest, spanDigits (cs ++ tail) = (whole, rest) ∧ spanFraction rest = (fraction, tail) := by
  have hdigit : ∀ c ∈ tail.head?, c.isDigit = false := fun c hc => (htail c hc).1
  cases h with
  | whole hwhole =>
      refine ⟨tail, spanDigits_append hwhole.2 hdigit, ?_⟩
      cases tail with
      | nil => rfl
      | cons c tail => exact spanFraction_of_ne (htail c rfl).2 tail
  | pointed hwhole hfraction =>
      refine ⟨'.' :: (fraction ++ tail), ?_, spanDigits_append hfraction hdigit⟩
      rw [List.append_assoc]
      exact spanDigits_append hwhole.2 (by simp)
  | fraction hfraction =>
      exact ⟨'.' :: (fraction ++ tail), rfl, spanDigits_append hfraction.2 hdigit⟩

theorem ne_nil_of_spellsMantissa {cs whole fraction : List Char}
    (h : SpellsMantissa cs whole fraction) : ¬ (whole = [] ∧ fraction = []) := by
  rintro ⟨rfl, rfl⟩
  cases h with
  | whole hwhole => exact hwhole.1 rfl
  | pointed hwhole hfraction => exact hwhole.1 rfl
  | fraction hfraction => exact hfraction.1 rfl

/-- What is taken off a text as digits before and behind a point is a
mantissa, if there are any. -/
theorem exists_spellsMantissa {cs whole rest fraction tail : List Char}
    (hwhole : spanDigits cs = (whole, rest)) (hfraction : spanFraction rest = (fraction, tail))
    (hne : ¬ (whole = [] ∧ fraction = [])) :
    ∃ mantissa, SpellsMantissa mantissa whole fraction ∧ cs = mantissa ++ tail := by
  obtain ⟨hdigits, rfl⟩ := eq_append_of_spanDigits hwhole
  unfold spanFraction at hfraction
  split at hfraction
  next behind =>
    obtain ⟨hdigits', rfl⟩ := eq_append_of_spanDigits hfraction
    by_cases hnil : whole = []
    · subst hnil
      exact ⟨'.' :: fraction, .fraction ⟨fun h => hne ⟨rfl, h⟩, hdigits'⟩, rfl⟩
    · refine ⟨whole ++ '.' :: fraction, .pointed ⟨hnil, hdigits⟩ hdigits', ?_⟩
      rw [List.append_assoc]
      rfl
  next =>
    obtain ⟨rfl, rfl⟩ := Prod.mk.inj hfraction
    exact ⟨whole, .whole ⟨fun h => hne ⟨h, rfl⟩, hdigits⟩, rfl⟩

-- ============================================================ exponents

theorem readExponent?_eq_some_iff {cs : List Char} {n : Int} :
    readExponent? cs = some n ↔ SpellsExponent cs n := by
  constructor
  · intro h
    unfold readExponent? at h
    split at h
    · rw [← Option.some.inj h]
      exact .missing
    · exact .marked (.inl rfl) (readInteger?_eq_some_iff.mp h)
    · exact .marked (.inr rfl) (readInteger?_eq_some_iff.mp h)
    · cases h
  · intro h
    cases h with
    | missing => rfl
    | marked hmark hexponent =>
        rcases hmark with rfl | rfl
        · exact readInteger?_eq_some_iff.mpr hexponent
        · exact readInteger?_eq_some_iff.mpr hexponent

theorem head?_of_spellsExponent {cs : List Char} {n : Int} (h : SpellsExponent cs n) :
    ∀ c ∈ cs.head?, c.isDigit = false ∧ c ≠ '.' := by
  cases h with
  | missing => intro c hc; cases hc
  | marked hmark hexponent =>
      intro c hc
      obtain rfl := Option.some.inj hc
      rcases hmark with rfl | rfl <;> decide

-- ============================================================ numerals

/-- The reader without bounds reads what is spelled. -/
theorem readUnbounded?_eq_some_iff {cs : List Char} {d : Decimal} :
    readUnbounded? cs = some d ↔ ∃ m, SpellsNumeral cs m ∧ m.decimal = d := by
  constructor
  · intro h
    simp only [readUnbounded?] at h
    obtain ⟨sign, hsign, hcs⟩ := exists_spellsSign cs
    obtain ⟨hne, hread⟩ := Option.ite_none_left_eq_some.mp h
    obtain ⟨exponent, htail, hd⟩ := Option.map_eq_some_iff.mp hread
    obtain ⟨mantissa, hmantissa, hunsigned⟩ := exists_spellsMantissa rfl rfl hne
    rw [hunsigned] at hcs
    rw [hcs, ← hd, digitsValue_eq_placeValue]
    exact ⟨_, .mk hsign hmantissa (readExponent?_eq_some_iff.mp htail), rfl⟩
  · rintro ⟨m, ⟨hsign, hmantissa, htail⟩, rfl⟩
    obtain ⟨c, behind, hcons, hminus, hplus⟩ := exists_cons_of_spellsMantissa hmantissa
    obtain ⟨rest, hwhole, hfraction⟩ :=
      span_of_spellsMantissa hmantissa (head?_of_spellsExponent htail)
    have hexponent := readExponent?_eq_some_iff.mpr htail
    subst hcons
    simp only [readUnbounded?, List.cons_append, takeSign_append hsign hminus hplus]
    rw [← List.cons_append, hwhole]
    simp only [hfraction, hexponent, if_neg (ne_nil_of_spellsMantissa hmantissa), Option.map_some,
      digitsValue_eq_placeValue]
    rfl

/-- A text that spells a numeral starts with a minus sign if and only if
the numeral has one. -/
theorem head?_eq_minus_iff {cs : List Char} {m : Numeral} (h : SpellsNumeral cs m) :
    cs.head? = some '-' ↔ m.negative = true := by
  obtain ⟨hsign, hmantissa, htail⟩ := h
  obtain ⟨c, behind, rfl, hminus, -⟩ := exists_cons_of_spellsMantissa hmantissa
  cases hsign with
  | missing => simp [hminus]
  | plus => simp
  | minus => simp

/-- A text is read as a decimal exactly if it spells a numeral whose
decimal lies within the limits: its first digit not too far in front of
the point, its last one not too far behind it, a zero having one digit.
The decimal is negative if the text starts with a minus sign, and it is
the number that was spelled, however many digits there are and however
many of them are leading zeros. -/
theorem read?_spells (cs : List Char) :
    (∀ d, read? cs = some d ↔
      (∃ m, SpellsNumeral cs m ∧ m.decimal = d) ∧
        d.exponent + Nat.log 10 d.coefficient ≤ 999999999999999999 ∧
        -1999999999999999997 ≤ d.exponent) ∧
    ∀ m, SpellsNumeral cs m →
      (m.decimal.negative = true ↔ cs.head? = some '-') ∧ m.decimal.number = m.number := by
  constructor
  · intro d
    rw [read?, Option.filter_eq_some_iff, readUnbounded?_eq_some_iff, withinLimits_iff]
  · intro m h
    exact ⟨(head?_eq_minus_iff h).symm, m.number_eq⟩

-- trailing zeros are kept, and a zero keeps its sign
example : read? "+00.50e3".toList = some ⟨false, 50, 1⟩ ∧
    read? "-.0".toList = some ⟨true, 0, -1⟩ ∧ read? "1.e".toList = none := by
  decide

end Decimal

end Unformat
