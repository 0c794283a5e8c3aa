/-
The written form of a decimal reads back to its three parts
(`Decimal.read?_write`), since it spells a numeral that stands for the
decimal (`Decimal.exists_spellsNumeral_write`). Writing arranges the
digits of the coefficient in one of five ways:

- all of them, with nothing behind;
- with a point between them;
- behind a point, with a zero in front and more zeros where there are
  too few digits;
- one digit and an exponent;
- the first digit, a point, the others and an exponent.

Each of them is a mantissa that spells the coefficient, and the count of
digits behind the point is what the written exponent leaves out. No zero
stands in front of other digits before the point, and behind a point there
are digits (`PlainMantissa`), whatever the digits that are arranged.
-/
import Unformat.Number.Decimal
import Unformat.Proofs.Number.Digits
import Unformat.Proofs.Number.Numeral

namespace Unformat

-- ============================================== statement vocabulary

/-- Digits with no zero in front, or a zero alone. -/
def IsWholePart (ds : List Char) : Prop :=
  IsDigits ds ∧ (ds.head? = some '0' → ds = ['0'])

/-- A mantissa with no zero in front that could be left out, and with
digits behind its point, if it has one. -/
inductive PlainMantissa : (cs whole fraction : List Char) → Prop where
  | whole {whole : List Char} (hwhole : IsWholePart whole) : PlainMantissa whole whole []
  | pointed {whole fraction : List Char} (hwhole : IsWholePart whole)
      (hfraction : IsDigits fraction) :
      PlainMantissa (whole ++ '.' :: fraction) whole fraction

theorem PlainMantissa.spells {cs whole fraction : List Char}
    (h : PlainMantissa cs whole fraction) : SpellsMantissa cs whole fraction := by
  cases h with
  | whole hwhole => exact .whole hwhole.1
  | pointed hwhole hfraction => exact .pointed hwhole.1 hfraction.2

-- ============================================================== digits

/-- A minus sign, or none. -/
theorem spellsSign_ite (negative : Bool) :
    SpellsSign (if negative then ['-'] else []) negative := by
  cases negative with
  | true => exact .minus
  | false => exact .missing

theorem isDigits_toDigits (n : Nat) : IsDigits (Nat.toDigits 10 n) :=
  ⟨Nat.toDigits_ne_nil, fun _ => isDigit_of_mem_toDigits⟩

/-- Only zero is written with a zero in front. -/
theorem isWholePart_toDigits (n : Nat) : IsWholePart (Nat.toDigits 10 n) := by
  refine ⟨isDigits_toDigits n, fun h => ?_⟩
  rw [eq_zero_of_head?_toDigits h]
  rfl

theorem isWholePart_singleton {c : Char} (h : c.isDigit = true) : IsWholePart [c] :=
  ⟨⟨List.cons_ne_nil c [], List.forall_mem_singleton.mpr h⟩,
    fun hhead => congrArg (· :: []) (Option.some.inj hhead)⟩

theorem placeValue_toDigits (n : Nat) : placeValue (Nat.toDigits 10 n) = n := by
  rw [← digitsValue_eq_placeValue, digitsValue_toDigits]

/-- Zeros in front do not count. -/
theorem placeValue_replicate_append (k : Nat) (ds : List Char) :
    placeValue (List.replicate k '0' ++ ds) = placeValue ds := by
  rw [← digitsValue_eq_placeValue, digitsValue_replicate_append, digitsValue_eq_placeValue]

namespace Decimal

-- ============================================================ mantissas

/-- Digits with a point spell what they spell without it. -/
theorem plainMantissa_pointed {ds : List Char} (hds : IsWholePart ds) (places : Nat) :
    ∃ whole fraction, PlainMantissa (pointed ds places) whole fraction ∧
      placeValue (whole ++ fraction) = placeValue ds ∧ fraction.length = places := by
  obtain ⟨⟨hne, hall⟩, hzero⟩ := hds
  unfold pointed
  by_cases h0 : places = 0
  · subst h0
    rw [if_pos rfl]
    exact ⟨ds, [], .whole ⟨⟨hne, hall⟩, hzero⟩, by rw [List.append_nil], rfl⟩
  rw [if_neg h0]
  by_cases hlt : places < ds.length
  · rw [if_pos hlt]
    have hlength : (ds.drop (ds.length - places)).length = places := by
      rw [List.length_drop, Nat.sub_sub_self (Nat.le_of_lt hlt)]
    have hfront : ds.take (ds.length - places) ≠ [] := by
      rw [Ne, List.take_eq_nil_iff]
      rintro (h | h)
      · omega
      · exact hne h
    have hwhole : IsWholePart (ds.take (ds.length - places)) := by
      refine ⟨⟨hfront, fun c hc => hall c (List.mem_of_mem_take hc)⟩, fun hhead => ?_⟩
      rw [List.head?_take, if_neg (by omega)] at hhead
      -- a zero in front is the only digit, and there are more
      rw [hzero hhead, List.length_singleton] at hlt
      omega
    have hfraction : IsDigits (ds.drop (ds.length - places)) :=
      ⟨fun hnil => h0 (by rw [← hlength, hnil, List.length_nil]),
        fun c hc => hall c (List.mem_of_mem_drop hc)⟩
    exact ⟨_, _, .pointed hwhole hfraction, by rw [List.take_append_drop], hlength⟩
  · rw [if_neg hlt]
    refine ⟨['0'], List.replicate (places - ds.length) '0' ++ ds, ?_, ?_, ?_⟩
    · show PlainMantissa (['0'] ++ '.' :: (List.replicate (places - ds.length) '0' ++ ds)) _ _
      apply PlainMantissa.pointed (isWholePart_singleton rfl)
      refine ⟨List.append_ne_nil_of_right_ne_nil _ hne, fun c hc => ?_⟩
      rcases List.mem_append.mp hc with hzero | hdigit
      · rw [(List.mem_replicate.mp hzero).2]
        rfl
      · exact hall c hdigit
    · show placeValue (List.replicate (places - ds.length + 1) '0' ++ ds) = _
      exact placeValue_replicate_append _ ds
    · rw [List.length_append, List.length_replicate, Nat.sub_add_cancel (by omega)]

/-- So do digits with a point behind the first. -/
theorem plainMantissa_leading {ds : List Char} (hds : IsDigits ds) :
    ∃ whole fraction, PlainMantissa (leading ds) whole fraction ∧
      whole ++ fraction = ds ∧ fraction.length = ds.length - 1 := by
  obtain ⟨hne, hall⟩ := hds
  match ds with
  | [] => exact absurd rfl hne
  | [c] => exact ⟨[c], [], .whole (isWholePart_singleton (hall c List.mem_cons_self)), rfl, rfl⟩
  | c :: d :: ds =>
      obtain ⟨hc, hrest⟩ := List.forall_mem_cons.mp hall
      have hmantissa := PlainMantissa.pointed (isWholePart_singleton hc)
        ⟨List.cons_ne_nil d ds, hrest⟩
      exact ⟨[c], d :: ds, hmantissa, rfl, rfl⟩

-- ============================================================ exponents

/-- Digits behind a sign that is always written. -/
theorem spellsInteger_signed {ds : List Char} {n : Int} (hds : IsDigits ds)
    (hvalue : placeValue ds = n.natAbs) :
    SpellsInteger ((if n < 0 then '-' else '+') :: ds) n := by
  by_cases h : n < 0
  · have hspells := SpellsInteger.mk .minus hds
    rw [hvalue, if_pos rfl, show -(n.natAbs : Int) = n from by omega] at hspells
    rw [if_pos h]
    exact hspells
  · have hspells := SpellsInteger.mk .plus hds
    rw [hvalue, if_neg Bool.false_ne_true, show (n.natAbs : Int) = n from by omega] at hspells
    rw [if_neg h]
    exact hspells

theorem spellsExponent_writeExponent (n : Int) : SpellsExponent ('E' :: writeExponent n) n :=
  .marked (.inr rfl)
    (spellsInteger_signed (isDigits_toDigits n.natAbs) (placeValue_toDigits n.natAbs))

-- ============================================================== writing

/-- What is written of a decimal spells a numeral that stands for it. -/
theorem exists_spellsNumeral_write (d : Decimal) :
    ∃ m, SpellsNumeral d.write m ∧ m.decimal = d := by
  have hds : IsWholePart d.digits := isWholePart_toDigits d.coefficient
  have hvalue : placeValue d.digits = d.coefficient := placeValue_toDigits d.coefficient
  unfold write
  by_cases hplain : d.exponent ≤ 0 ∧ -6 ≤ d.adjusted
  · rw [if_pos hplain]
    obtain ⟨whole, fraction, hmantissa, hplace, hlength⟩ :=
      plainMantissa_pointed hds d.exponent.natAbs
    have hspells := SpellsNumeral.mk (spellsSign_ite d.negative) hmantissa.spells .missing
    rw [List.append_nil] at hspells
    refine ⟨_, hspells, ?_⟩
    have hexponent : 0 - (d.exponent.natAbs : Int) = d.exponent := by omega
    rw [Numeral.decimal, hplace, hvalue, hlength, hexponent]
  · rw [if_neg hplain]
    obtain ⟨whole, fraction, hmantissa, hplace, hlength⟩ := plainMantissa_leading hds.1
    refine ⟨_, .mk (spellsSign_ite d.negative) hmantissa.spells
      (spellsExponent_writeExponent d.adjusted), ?_⟩
    have hpos : 0 < d.digits.length := List.length_pos_iff.mpr hds.1.1
    have hexponent : d.adjusted - (d.digits.length - 1 : Nat) = d.exponent := by
      unfold adjusted
      omega
    rw [Numeral.decimal, hplace, hvalue, hlength, hexponent]

theorem readUnbounded?_write (d : Decimal) : readUnbounded? d.write = some d :=
  readUnbounded?_eq_some_iff.mpr d.exists_spellsNumeral_write

/-- The written form of a decimal within the limits reads back to its
three parts. -/
theorem read?_write {d : Decimal} (h : d.withinLimits = true) : read? d.write = some d := by
  unfold read?
  rw [readUnbounded?_write, Option.filter_some, if_pos h]

/-- Only decimals within the limits are ever read. -/
theorem withinLimits_of_read? {cs : List Char} {d : Decimal} (h : read? cs = some d) :
    d.withinLimits = true := by
  unfold read? at h
  exact (Option.filter_eq_some_iff.mp h).2

/-- The decimal of an integer is written as the integer is. -/
theorem write_ofInt (n : Int) : (ofInt n).write = writeInteger n := by
  have hpos : 0 < (ofInt n).digits.length := List.length_pos_iff.mpr Nat.toDigits_ne_nil
  have hexponent : (ofInt n).exponent = 0 := rfl
  have hplain : (ofInt n).exponent ≤ 0 ∧ -6 ≤ (ofInt n).adjusted := by
    unfold adjusted
    omega
  unfold write writeInteger
  rw [if_pos hplain]
  by_cases h : n < 0
  · simp [ofInt, pointed, digits, h]
  · simp [ofInt, pointed, digits, h]

end Decimal

end Unformat
