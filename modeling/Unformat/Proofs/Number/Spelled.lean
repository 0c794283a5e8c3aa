/-
Integers as they are spelled in base ten, said without a reader
(`SpellsInteger`): a sign, which may be missing, and one or more digits,
each of which counts for a power of ten by the digits behind it
(`placeValue`). The reader without bounds reads these and nothing else
(`readInteger?_eq_some_iff`).

The bounded reader gives up on more than nineteen digits behind the
leading zeros, and still misses nothing (`readInt64?_spells`). The first
of those digits is not zero, so that twenty of them spell at least
10 ^ 19 (`pow_le_placeValue`), which lies beyond both ends of the 64-bit
range; and the zeros in front, however many, do not count.
-/
import Mathlib.Algebra.Group.Int.Defs
import Mathlib.Algebra.Group.Nat.Defs
import Unformat.Proofs.Number.Digits

namespace Unformat

-- ============================================== statement vocabulary

/-- The number that digits spell in base ten. -/
def placeValue : List Char → Nat
  | [] => 0
  | d :: ds => (d.toNat - '0'.toNat) * 10 ^ ds.length + placeValue ds

/-- One or more digits. -/
def IsDigits (ds : List Char) : Prop :=
  ds ≠ [] ∧ ∀ c ∈ ds, c.isDigit = true

/-- A sign, which may be missing, and whether it is a minus. -/
inductive SpellsSign : (sign : List Char) → (negative : Bool) → Prop where
  | missing : SpellsSign [] false
  | plus : SpellsSign ['+'] false
  | minus : SpellsSign ['-'] true

/-- A sign and digits, and the integer that they spell. -/
inductive SpellsInteger : (cs : List Char) → (n : Int) → Prop where
  | mk {sign digits : List Char} {negative : Bool} (hsign : SpellsSign sign negative)
      (hdigits : IsDigits digits) :
      SpellsInteger (sign ++ digits) (if negative then -(placeValue digits : Int)
        else placeValue digits)

-- =============================================================== signs

theorem takeSign_cons {c : Char} (hminus : c ≠ '-') (hplus : c ≠ '+') (cs : List Char) :
    takeSign (c :: cs) = (false, c :: cs) := by
  simp [takeSign, hminus, hplus]

/-- A sign is taken off a text that goes on with something else. -/
theorem takeSign_append {sign : List Char} {negative : Bool} (h : SpellsSign sign negative)
    {c : Char} (hminus : c ≠ '-') (hplus : c ≠ '+') (cs : List Char) :
    takeSign (sign ++ c :: cs) = (negative, c :: cs) := by
  cases h with
  | missing => exact takeSign_cons hminus hplus cs
  | plus => rfl
  | minus => rfl

/-- What is taken off a text is a sign. -/
theorem exists_spellsSign (cs : List Char) :
    ∃ sign, SpellsSign sign (takeSign cs).1 ∧ cs = sign ++ (takeSign cs).2 := by
  unfold takeSign
  split
  · exact ⟨['-'], .minus, rfl⟩
  · exact ⟨['+'], .plus, rfl⟩
  · exact ⟨[], .missing, rfl⟩

theorem SpellsSign.characters {sign : List Char} {negative : Bool} (h : SpellsSign sign negative) :
    ∀ c ∈ sign, c ∈ ['+', '-'] := by
  cases h with
  | missing => exact fun c hc => absurd hc List.not_mem_nil
  | plus => exact List.forall_mem_singleton.mpr (by decide)
  | minus => exact List.forall_mem_singleton.mpr (by decide)

/-- An integer is spelled with a sign and digits alone. -/
theorem SpellsInteger.characters {cs : List Char} {n : Int} (h : SpellsInteger cs n) :
    ∀ c ∈ cs, c.isDigit = true ∨ c ∈ ['+', '-'] := by
  obtain ⟨hsign, hdigits⟩ := h
  intro c hc
  rcases List.mem_append.mp hc with hc | hc
  · exact .inr (hsign.characters c hc)
  · exact .inl (hdigits.2 c hc)

/-- Digits start with no sign. -/
theorem IsDigits.exists_cons {ds : List Char} (h : IsDigits ds) :
    ∃ c cs, ds = c :: cs ∧ c ≠ '-' ∧ c ≠ '+' := by
  obtain ⟨hne, hall⟩ := h
  obtain ⟨c, cs, rfl⟩ := List.exists_cons_of_ne_nil hne
  have hc : c.isDigit = true := hall c List.mem_cons_self
  refine ⟨c, cs, rfl, ?_, ?_⟩
  · rintro rfl
    cases hc
  · rintro rfl
    cases hc

theorem takeSign_append_digits {sign digits : List Char} {negative : Bool}
    (h : SpellsSign sign negative) (hdigits : IsDigits digits) :
    takeSign (sign ++ digits) = (negative, digits) := by
  obtain ⟨c, cs, rfl, hminus, hplus⟩ := hdigits.exists_cons
  exact takeSign_append h hminus hplus cs

-- ============================================================== digits

/-- The reader of digits goes from the left, with the number read so far
in hand. -/
theorem ofDigitChars_eq (ds : List Char) (n : Nat) :
    Nat.ofDigitChars 10 ds n = n * 10 ^ ds.length + placeValue ds := by
  induction ds generalizing n with
  | nil => simp [placeValue, Nat.ofDigitChars_nil]
  | cons d ds ih =>
      rw [Nat.ofDigitChars_cons, ih, placeValue, List.length_cons, Nat.pow_succ, Nat.add_mul,
        Nat.add_assoc]
      congr 1
      rw [Nat.mul_comm 10 n, Nat.mul_assoc, Nat.mul_comm 10]

theorem digitsValue_eq_placeValue (ds : List Char) : digitsValue ds = placeValue ds := by
  rw [digitsValue, ofDigitChars_eq, Nat.zero_mul, Nat.zero_add]

theorem placeValue_append (ds es : List Char) :
    placeValue (ds ++ es) = placeValue ds * 10 ^ es.length + placeValue es := by
  rw [← digitsValue_eq_placeValue, digitsValue, Nat.ofDigitChars_append, ofDigitChars_eq es,
    ← digitsValue, digitsValue_eq_placeValue]

/-- A first digit other than zero counts for at least one. -/
theorem pow_le_placeValue {d : Char} (hdigit : d.isDigit = true) (hzero : d ≠ '0')
    (ds : List Char) : 10 ^ ds.length ≤ placeValue (d :: ds) := by
  have hrange := Char.isDigit_iff_toNat.mp hdigit
  have hne : d.toNat ≠ '0'.toNat := fun h => hzero (Char.toNat_inj.mp h)
  rw [placeValue]
  calc 10 ^ ds.length = 1 * 10 ^ ds.length := (Nat.one_mul _).symm
    _ ≤ (d.toNat - '0'.toNat) * 10 ^ ds.length := Nat.mul_le_mul_right _ (by omega)
    _ ≤ _ := Nat.le_add_right _ _

/-- A number below 10 ^ 19 has no more than nineteen digits behind its
leading zeros. -/
theorem length_significant_le {ds : List Char} (hds : ∀ c ∈ ds, c.isDigit = true)
    (hlt : placeValue ds < 10 ^ 19) : (ds.dropWhile (· = '0')).length ≤ 19 := by
  have hvalue : placeValue (ds.dropWhile (· = '0')) = placeValue ds := by
    rw [← digitsValue_eq_placeValue, digitsValue_dropWhile_zero, digitsValue_eq_placeValue]
  have hhead := List.head?_dropWhile_not (fun c => decide (c = '0')) ds
  have hsub := List.dropWhile_sublist (l := ds) (fun c => decide (c = '0'))
  cases hsignificant : ds.dropWhile (· = '0') with
  | nil => exact Nat.zero_le _
  | cons d rest =>
      rw [hsignificant] at hvalue hhead hsub
      have hdigit : d.isDigit = true := hds d (hsub.subset List.mem_cons_self)
      have hzero : d ≠ '0' := by simpa using hhead
      have hpow : 10 ^ rest.length < 10 ^ 19 :=
        calc 10 ^ rest.length ≤ placeValue (d :: rest) := pow_le_placeValue hdigit hzero rest
          _ = placeValue ds := hvalue
          _ < 10 ^ 19 := hlt
      exact (Nat.pow_lt_pow_iff_right (by decide)).mp hpow

-- ============================================================ integers

/-- The reader without bounds reads what is spelled. -/
theorem readInteger?_eq_some_iff {cs : List Char} {n : Int} :
    readInteger? cs = some n ↔ SpellsInteger cs n := by
  simp only [readInteger?, digitsValue_eq_placeValue, signed]
  constructor
  · intro h
    obtain ⟨sign, hsign, hcs⟩ := exists_spellsSign cs
    obtain ⟨⟨hne, hall⟩, hn⟩ := Option.ite_none_right_eq_some.mp h
    rw [hcs, ← Option.some.inj hn]
    exact .mk hsign ⟨hne, List.all_eq_true.mp hall⟩
  · rintro ⟨hsign, hdigits⟩
    rw [takeSign_append_digits hsign hdigits,
      if_pos ⟨hdigits.1, List.all_eq_true.mpr hdigits.2⟩]

/-- The bounded reader reads what the other one does, if it lies in the
64-bit range. -/
theorem readInt64?_eq_filter (cs : List Char) :
    readInt64? cs = (readInteger? cs).filter fitsInt64 := by
  simp only [readInt64?, readInteger?, digitsValue_dropWhile_zero]
  by_cases hdigits : (takeSign cs).2 ≠ [] ∧ (takeSign cs).2.all Char.isDigit = true
  · rw [if_pos hdigits, Option.filter_some]
    obtain ⟨hne, hall⟩ := hdigits
    by_cases hfits : fitsInt64 (signed (takeSign cs).1 (digitsValue (takeSign cs).2)) = true
    · have hrange := fitsInt64_iff.mp hfits
      have hlt : placeValue (takeSign cs).2 < 10 ^ 19 := by
        rw [digitsValue_eq_placeValue, signed] at hrange
        split at hrange
        · omega
        · omega
      have hlength := length_significant_le (List.all_eq_true.mp hall) hlt
      rw [if_pos ⟨hne, hall, hlength⟩]
    · rw [if_neg hfits, ite_self]
  · rw [if_neg hdigits, if_neg fun h => hdigits ⟨h.1, h.2.1⟩, Option.filter_none]

/-- A text is read as a 64-bit integer exactly if it spells one: a sign,
which may be missing, and digits, however many of them are leading
zeros. -/
theorem readInt64?_spells (cs : List Char) :
    (∀ n, readInt64? cs = some n ↔
      SpellsInteger cs n ∧ -2 ^ 63 ≤ n ∧ n ≤ 2 ^ 63 - 1) ∧
    (readInt64? cs = none ↔
      ¬ ∃ n, SpellsInteger cs n ∧ -2 ^ 63 ≤ n ∧ n ≤ 2 ^ 63 - 1) := by
  have hsome : ∀ n, readInt64? cs = some n ↔
      SpellsInteger cs n ∧ -2 ^ 63 ≤ n ∧ n ≤ 2 ^ 63 - 1 := by
    intro n
    rw [readInt64?_eq_filter, Option.filter_eq_some_iff, readInteger?_eq_some_iff, fitsInt64_iff]
    exact and_congr_right fun _ => and_congr (by omega) (by omega)
  refine ⟨hsome, ?_⟩
  rw [Option.eq_none_iff_forall_ne_some, not_exists]
  exact forall_congr' fun n => not_congr (hsome n)

-- twenty digits and more, at both ends of the range and just beyond one
example : readInt64? "+0009223372036854775807".toList = some (2 ^ 63 - 1) ∧
    readInt64? "-0009223372036854775808".toList = some (-2 ^ 63) ∧
    readInt64? "+0009223372036854775808".toList = none := by
  decide

end Unformat
