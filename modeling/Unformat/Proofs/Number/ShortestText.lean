/-
The shortest text of a finite number reads back to the number
(`Binary64.exists_spells_write`), in every layout.

The digits are searched for from the first one on, and a candidate is
taken only if it reads back (`gridBits_of_onGrid?`). So what there is to
prove is that a candidate is found before the digits run out. With
seventeen of them the nearer of the two neighbours is off by half a unit,
of which the number has 10 ^ 16; that is less than a part in 2 ^ 54, which
rounding does not see (`exists_onGrid?`).

A layout leaves out the zeros behind the last digit, or puts more of them
behind it, and moves the point. All of this changes the decimal, but not
its magnitude, and so not the number that it reads back to.
-/
import Unformat.Number.Shortest
import Unformat.Proofs.Number.DecimalText
import Unformat.Proofs.Number.Nearest

namespace Unformat

-- ============================================== statement vocabulary

/-- A numeral that is spelled with a point or an exponent, with no zero in
front that could be left out and with digits on both sides of the point. -/
inductive SpellsPlainly : (cs : List Char) → Numeral → Prop where
  | mk {mantissa tail whole fraction : List Char} {exponent : Int} (negative : Bool)
      (hmantissa : PlainMantissa mantissa whole fraction) (htail : SpellsExponent tail exponent)
      (hmarked : ¬ (fraction = [] ∧ tail = [])) :
      SpellsPlainly ((if negative then ['-'] else []) ++ (mantissa ++ tail))
        ⟨negative, whole, fraction, exponent⟩

theorem SpellsPlainly.spells {cs : List Char} {m : Numeral} (h : SpellsPlainly cs m) :
    SpellsNumeral cs m := by
  obtain ⟨negative, hmantissa, htail, -⟩ := h
  exact .mk (spellsSign_ite negative) hmantissa.spells htail

namespace Binary64

variable {m num den : Nat}

-- ============================================================ quotients

/-- A magnitude is taken apart into a quotient. -/
theorem ratio_eq (m : Nat) :
    (ratio m).2 ≠ 0 ∧ ((ratio m).1 : ℚ) / (ratio m).2 = bitsNumber m := by
  obtain ⟨units, hunits⟩ : ∃ units, units = 1074 := ⟨1074, rfl⟩
  have hone : unitsPerOne = 2 ^ units := hunits ▸ unitsPerOne_eq
  have hratio : ratio m =
      if units ≤ bitsPlace m then (bitsDigits m * 2 ^ (bitsPlace m - units), 1)
      else (bitsDigits m, 2 ^ (units - bitsPlace m)) := by
    have hexponent : ((if m / hiddenBit = 0 then 1 else m / hiddenBit : Nat) : Int) - 1075 =
        bitsPlace m - units := by
      unfold bitsPlace
      generalize m / hiddenBit = field
      split <;> omega
    simp only [ratio, hexponent, Nat.shiftLeft_eq, Nat.one_mul]
    unfold bitsDigits
    by_cases hle : units ≤ bitsPlace m
    · rw [if_pos (by omega), if_pos hle,
        show ((bitsPlace m : Int) - units).toNat = bitsPlace m - units from by omega]
    · rw [if_neg (by omega), if_neg hle,
        show (-((bitsPlace m : Int) - units)).toNat = units - bitsPlace m from by omega]
  rw [hratio, bitsNumber, bitsUnits, hone]
  split
  next hle =>
    obtain ⟨k, hk⟩ := Nat.exists_eq_add_of_le hle
    refine ⟨Nat.one_ne_zero, ?_⟩
    rw [hk, Nat.add_sub_cancel_left]
    push_cast
    rw [div_one, pow_add, eq_div_iff (by positivity)]
    ring
  next hlt =>
    obtain ⟨k, hk⟩ := Nat.exists_eq_add_of_le (Nat.le_of_not_le hlt)
    refine ⟨(Nat.two_pow_pos _).ne', ?_⟩
    rw [hk, Nat.add_sub_cancel_left]
    push_cast
    rw [div_eq_div_iff (by positivity) (by positivity), pow_add]
    ring

/-- A quotient in units of a power of ten is a quotient of two natural
numbers. -/
theorem exists_unitsOf (num : Nat) (hden : den ≠ 0) (last : Int) :
    ∃ num' den' : Nat, den' ≠ 0 ∧ (num' : ℚ) / den' * 10 ^ last = num / den ∧
      unitsOf num den last = (num' / den', compare (2 * (num' % den')) den') := by
  have hpos : (den : ℚ) ≠ 0 := Nat.cast_ne_zero.mpr hden
  unfold unitsOf
  by_cases hlast : 0 ≤ last
  · obtain ⟨k, rfl⟩ := Int.eq_ofNat_of_zero_le hlast
    rw [if_pos hlast, Int.toNat_natCast]
    refine ⟨num, den * 10 ^ k, Nat.mul_ne_zero hden (pow_ne_zero _ (by decide)), ?_, rfl⟩
    push_cast
    rw [zpow_natCast]
    field_simp
  · obtain ⟨k, rfl⟩ : ∃ k : Nat, last = -k := ⟨(-last).toNat, by omega⟩
    rw [if_neg hlast, neg_neg, Int.toNat_natCast]
    refine ⟨num * 10 ^ k, den, hden, ?_, rfl⟩
    push_cast
    rw [zpow_neg, zpow_natCast]
    field_simp

/-- The search for the first digit stops at a power of ten that is not
above the quotient. -/
theorem zpow_firstExponent_le (hden : den ≠ 0) (hleast : (10 : ℚ) ^ (-400 : Int) ≤ num / den) :
    (10 : ℚ) ^ firstExponent num den ≤ num / den := by
  have hpos : (0 : ℚ) < den := Nat.cast_pos.mpr (Nat.pos_of_ne_zero hden)
  have hreached : ∀ e : Int, (if 0 ≤ e then den * Nat.pow 10 e.toNat ≤ num
      else den ≤ num * Nat.pow 10 (-e).toNat) → (10 : ℚ) ^ e ≤ num / den := by
    intro e h
    rw [le_div_iff₀ hpos]
    by_cases he : 0 ≤ e
    · obtain ⟨k, rfl⟩ := Int.eq_ofNat_of_zero_le he
      rw [if_pos he, Int.toNat_natCast] at h
      rw [zpow_natCast, mul_comm]
      exact_mod_cast h
    · obtain ⟨k, rfl⟩ : ∃ k : Nat, e = -k := ⟨(-e).toNat, by omega⟩
      rw [if_neg he, neg_neg, Int.toNat_natCast] at h
      rw [zpow_neg, zpow_natCast, inv_mul_le_iff₀ (by positivity), mul_comm]
      exact_mod_cast h
  have hdown : ∀ k, (10 : ℚ) ^ firstExponent.down num den k ≤ num / den := by
    intro k
    induction k with
    | zero => exact hleast
    | succ k ih =>
        unfold firstExponent.down
        dsimp only
        by_cases h : if 0 ≤ (k : Int) - 400 then den * Nat.pow 10 ((k : Int) - 400).toNat ≤ num
          else den ≤ num * Nat.pow 10 (-((k : Int) - 400)).toNat
        · rw [if_pos h]
          exact hreached _ h
        · rw [if_neg h]
          exact ih
  exact hdown 800

-- ============================================================== search

/-- What is taken from the grid reads back. -/
theorem gridBits_of_onGrid? {n : Nat} {last : Int} (h : onGrid? m num den last = some n) :
    gridBits n last = m := by
  simp only [onGrid?] at h
  generalize unitsOf num den last = units at h
  generalize (if units.2 = .lt ∨ (units.2 = .eq ∧ units.1 % 2 = 0) then units.1
    else units.1 + 1) = nearer at h
  split at h
  next hnearer => rwa [← Option.some.inj h]
  next =>
    obtain ⟨hfarther, hn⟩ := Option.ite_none_right_eq_some.mp h
    rwa [← Option.some.inj hn]

/-- Of the two neighbours on the grid the nearer one is off by half a unit
at most. If all that is off by no more reads back, one of the two does. -/
theorem exists_onGrid? (hden : den ≠ 0) {last : Int}
    (h : ∀ n : Nat, 2 * |(n * (10 : ℚ) ^ last - num / den)| ≤ 10 ^ last → gridBits n last = m) :
    ∃ n, onGrid? m num den last = some n := by
  obtain ⟨num', den', hden', hscaled, hunits⟩ := exists_unitsOf num hden last
  have hdiv : den' * (num' / den') + num' % den' = num' := Nat.div_add_mod num' den'
  have hmod : num' % den' < den' := Nat.mod_lt num' (Nat.pos_of_ne_zero hden')
  simp only [onGrid?, hunits]
  generalize hnearer : (if compare (2 * (num' % den')) den' = .lt ∨
    (compare (2 * (num' % den')) den' = .eq ∧ num' / den' % 2 = 0) then num' / den'
    else num' / den' + 1) = nearer
  have hclose : 2 * (nearer * den') ≤ 2 * num' + den' ∧ 2 * num' ≤ 2 * (nearer * den') + den' := by
    simp only [Nat.compare_eq_lt, Nat.compare_eq_eq] at hnearer
    split at hnearer
    · rw [← hnearer, Nat.mul_comm (num' / den')]
      omega
    · rw [← hnearer, Nat.add_mul, Nat.one_mul, Nat.mul_comm (num' / den')]
      omega
  have hpos : (0 : ℚ) < den' := Nat.cast_pos.mpr (Nat.pos_of_ne_zero hden')
  have hunit : (0 : ℚ) < 10 ^ last := zpow_pos (by norm_num) _
  have hreads : gridBits nearer last = m := by
    apply h
    have hlow : (2 : ℚ) * (nearer * den') ≤ 2 * num' + den' := by exact_mod_cast hclose.1
    have hhigh : (2 : ℚ) * num' ≤ 2 * (nearer * den') + den' := by exact_mod_cast hclose.2
    rw [← hscaled, ← sub_mul, abs_mul, abs_of_pos hunit, ← mul_assoc]
    refine mul_le_of_le_one_left hunit.le ?_
    rw [← abs_two, ← abs_mul, abs_le, mul_sub, ← mul_div_assoc]
    constructor
    · rw [neg_le_sub_iff_le_add, div_le_iff₀ hpos, add_mul]
      linarith
    · rw [sub_le_comm, le_div_iff₀ hpos, sub_mul]
      linarith
  rw [if_pos hreads]
  exact ⟨nearer, rfl⟩

/-- The search ends at digits that read back, if the grid with the last of
the places holds such digits. -/
theorem gridBits_search {k : Nat} {last : Int}
    (h : ∃ n, onGrid? m num den (last - k) = some n) :
    gridBits (shortest.search m num den (k + 1) last).1
      (shortest.search m num den (k + 1) last).2 = m := by
  induction k generalizing last with
  | zero =>
      obtain ⟨n, hn⟩ := h
      rw [Nat.cast_zero, sub_zero] at hn
      simp only [shortest.search, hn]
      exact gridBits_of_onGrid? hn
  | succ k ih =>
      rw [shortest.search]
      split
      next n hn => exact gridBits_of_onGrid? hn
      next =>
        apply ih
        rwa [show last - 1 - k = last - (k + 1 : Nat) from by omega]

/-- The shortest digits of a magnitude read back to it. -/
theorem gridBits_shortest (hzero : m ≠ 0) (hfinite : m < infinityBits) :
    gridBits (shortest m).1 (shortest m).2 = m := by
  obtain ⟨hden, hnumber⟩ := ratio_eq m
  have hleast : (10 : ℚ) ^ (-400 : Int) ≤ bitsNumber m := by
    have hpow : (0 : ℚ) < 10 ^ (-400 : Int) := zpow_pos (by norm_num) _
    linarith [(bitsNumber_bounds hzero hfinite).1]
  simp only [shortest]
  generalize ratio m = quotient at hden hnumber
  obtain ⟨num, den⟩ := quotient
  dsimp only at hden hnumber ⊢
  have hfirst := zpow_firstExponent_le hden (hnumber ▸ hleast)
  generalize firstExponent num den = first at hfirst
  refine gridBits_search (exists_onGrid? hden fun n hn => ?_)
  -- half a unit of the last place is less than a part in 2 ^ 54
  have hunits : (10 : ℚ) ^ first = 10 ^ 16 * 10 ^ (first - (16 : Nat)) := by
    rw [← zpow_natCast, ← zpow_add₀ (by norm_num), add_sub_cancel]
  have hunit : (0 : ℚ) < 10 ^ (first - (16 : Nat)) := zpow_pos (by norm_num) _
  apply decimalBits_of_close hzero hfinite
  rw [Decimal.abs_number, ← hnumber]
  show 2 ^ 54 * |n * (10 : ℚ) ^ (first - (16 : Nat)) - num / den| < num / den
  rw [hunits] at hfirst
  generalize (10 : ℚ) ^ (first - (16 : Nat)) = unit at hn hunit hfirst ⊢
  linarith

-- ============================================================== layout

variable {d d' : Decimal}

/-- Zeros behind the last digit make up for its place. -/
theorem abs_number_eq_of_zeros (negative negative' : Bool) {n k : Nat} {last : Int} :
    |(⟨negative, n * 10 ^ k, last⟩ : Decimal).number| =
      |(⟨negative', n, last + k⟩ : Decimal).number| := by
  rw [Decimal.abs_number, Decimal.abs_number]
  push_cast
  rw [zpow_add₀ (by norm_num), zpow_natCast]
  ring

theorem placeValue_append_zeros (ds : List Char) (k : Nat) :
    placeValue (ds ++ List.replicate k '0') = placeValue ds * 10 ^ k := by
  have hzeros := placeValue_replicate_append k []
  rw [List.append_nil] at hzeros
  rw [placeValue_append, hzeros, List.length_replicate]
  rfl

/-- What is kept of digits, with the zeros that were left out. -/
theorem trimZeros_append (ds : List Char) :
    (trimZeros ds).1 ++ List.replicate (trimZeros ds).2 '0' = ds := by
  have hsplit : ds.reverse.takeWhile (· = '0') ++ ds.reverse.dropWhile (· = '0') = ds.reverse :=
    List.takeWhile_append_dropWhile
  have hzeros : ds.reverse.takeWhile (· = '0') = List.replicate (trimZeros ds).2 '0' := by
    have hlength := congrArg List.length hsplit
    rw [List.length_append, List.length_reverse] at hlength
    refine List.eq_replicate_iff.mpr ⟨?_, fun c hc => ?_⟩
    · rw [trimZeros, List.length_reverse]
      omega
    · exact of_decide_eq_true (List.all_eq_true.mp List.all_takeWhile c hc)
  rw [hzeros] at hsplit
  have hreversed := congrArg List.reverse hsplit
  rwa [List.reverse_append, List.reverse_replicate, List.reverse_reverse] at hreversed

theorem spellsExponent_writeExponent (n : Int) : SpellsExponent ('e' :: writeExponent n) n := by
  refine .marked (.inl rfl) (Decimal.spellsInteger_signed ?_ ?_)
  · split
    · exact ⟨List.cons_ne_nil _ _, List.forall_mem_cons.mpr ⟨rfl, (isDigits_toDigits _).2⟩⟩
    · exact isDigits_toDigits _
  · split
    · exact (placeValue_replicate_append 1 _).trans (placeValue_toDigits _)
    · exact placeValue_toDigits _

/-- The digits of a number above zero that are kept, and what those that
are left out are worth. -/
theorem trimZeros_toDigits {n : Nat} (hn : n ≠ 0) :
    let kept := trimZeros (Nat.toDigits 10 n)
    IsDigits kept.1 ∧ kept.1.head? ≠ some '0' ∧ n = placeValue kept.1 * 10 ^ kept.2 := by
  intro kept
  have hall : kept.1 ++ List.replicate kept.2 '0' = Nat.toDigits 10 n := trimZeros_append _
  have hvalue : n = placeValue kept.1 * 10 ^ kept.2 := by
    rw [← placeValue_append_zeros, hall, placeValue_toDigits]
  have hne : kept.1 ≠ [] := fun hnil => by
    rw [hnil] at hvalue
    exact hn (hvalue.trans (Nat.zero_mul _))
  refine ⟨⟨hne, fun c hc => ?_⟩, fun hhead => hn ?_, hvalue⟩
  · exact isDigit_of_mem_toDigits (hall ▸ List.mem_append_left _ hc)
  · apply eq_zero_of_head?_toDigits
    rw [← hall, List.head?_append, hhead]
    rfl

/-- Digits with zeros up to the point, and one more behind it. -/
theorem plainMantissa_zeros {ds : List Char} (hds : IsDigits ds) (hhead : ds.head? ≠ some '0')
    (k : Nat) :
    PlainMantissa (ds ++ List.replicate k '0' ++ ['.', '0']) (ds ++ List.replicate k '0') ['0'] ∧
      placeValue (ds ++ List.replicate k '0' ++ ['0']) = placeValue ds * 10 ^ (k + 1) := by
  have hwhole : IsWholePart (ds ++ List.replicate k '0') := by
    refine ⟨⟨List.append_ne_nil_of_left_ne_nil hds.1 _, fun c hc => ?_⟩, fun h => ?_⟩
    · rcases List.mem_append.mp hc with hc | hc
      · exact hds.2 c hc
      · rw [(List.mem_replicate.mp hc).2]
        rfl
    · rw [List.head?_append_of_ne_nil _ hds.1] at h
      exact absurd h hhead
  refine ⟨.pointed hwhole (isWholePart_singleton (c := '0') rfl).1, ?_⟩
  rw [List.append_assoc, ← List.replicate_succ', placeValue_append_zeros]

/-- The layout of digits spells a numeral of their magnitude. -/
theorem exists_spells_layOut (l : Layout) {n : Nat} (hn : n ≠ 0) (last : Int) (negative : Bool) :
    ∃ m : Numeral, SpellsPlainly ((if negative then ['-'] else []) ++ layOut l n last) m ∧
      m.negative = negative ∧ |m.decimal.number| = |(⟨false, n, last⟩ : Decimal).number| := by
  obtain ⟨hdigits, hhead, hvalue⟩ := trimZeros_toDigits hn
  unfold layOut
  generalize trimZeros (Nat.toDigits 10 n) = kept at hdigits hhead hvalue ⊢
  obtain ⟨ds, dropped⟩ := kept
  dsimp only at hdigits hhead hvalue ⊢
  have hmagnitude : |(⟨false, n, last⟩ : Decimal).number| =
      |(⟨negative, placeValue ds, last + dropped⟩ : Decimal).number| := by
    rw [hvalue]
    exact abs_number_eq_of_zeros false negative
  rw [hmagnitude]
  generalize last + dropped = last
  by_cases hplain : l.leastPlain ≤ last + ds.length - 1 ∧ last + ds.length - 1 ≤ l.mostPlain
  · rw [if_pos hplain]
    by_cases hlast : 0 ≤ last
    · obtain ⟨k, rfl⟩ := Int.eq_ofNat_of_zero_le hlast
      obtain ⟨hmantissa, hplace⟩ := plainMantissa_zeros hdigits hhead k
      rw [if_pos hlast, Int.toNat_natCast]
      have hspells := SpellsPlainly.mk negative hmantissa .missing (by simp)
      rw [List.append_nil] at hspells
      refine ⟨_, hspells, rfl, ?_⟩
      have hexponent : (0 : Int) - (['0'] : List Char).length + (k + 1 : Nat) = k := by
        rw [List.length_singleton]
        omega
      rw [Numeral.decimal, hplace, abs_number_eq_of_zeros negative negative, hexponent]
    · rw [if_neg hlast]
      obtain ⟨whole, fraction, hmantissa, hplace, hlength⟩ :=
        Decimal.plainMantissa_pointed ⟨hdigits, fun h => absurd h hhead⟩ (-last).toNat
      have hspells := SpellsPlainly.mk negative hmantissa .missing fun h => by
        rw [h.1, List.length_nil] at hlength
        omega
      rw [List.append_nil] at hspells
      refine ⟨_, hspells, rfl, ?_⟩
      have hexponent : (0 : Int) - (-last).toNat = last := by omega
      rw [Numeral.decimal, hplace, hlength, hexponent]
  · rw [if_neg hplain]
    obtain ⟨whole, fraction, hmantissa, hplace, hlength⟩ := Decimal.plainMantissa_leading hdigits
    have hspells := SpellsPlainly.mk negative hmantissa
      (spellsExponent_writeExponent (last + ds.length - 1)) (by simp)
    refine ⟨_, hspells, rfl, ?_⟩
    have hpos : 0 < ds.length := List.length_pos_iff.mpr hdigits.1
    have hexponent : last + ds.length - 1 - (ds.length - 1 : Nat) = last := by omega
    rw [Numeral.decimal, hplace, hlength, hexponent]

theorem ofDecimal_eq {x : Binary64} (h : x.isFinite = true) (hsign : d.negative = x.negative)
    (hbits : decimalBits d = x.magnitude.val) : ofDecimal d = x := by
  have hfinite : x.magnitude.val < infinityBits := of_decide_eq_true h
  simp only [ofDecimal, hsign, hbits, clamped, Nat.min_eq_left hfinite.le]

theorem write_of_isFinite {l : Layout} {x : Binary64} {n : Nat} {last : Int}
    (h : x.isFinite = true) (hdigits : shortest x.magnitude.val = (n, last)) :
    x.write l = (if x.negative then ['-'] else []) ++
      if x.magnitude.val = 0 then ['0', '.', '0'] else layOut l n last := by
  have hfinite : x.magnitude.val < infinityBits := of_decide_eq_true h
  unfold write
  extract_lets bits
  rw [if_neg (Nat.not_lt.mpr hfinite.le), if_neg hfinite.ne, show shortest bits = _ from hdigits]

/-- The shortest text of a finite number spells a numeral for which the
number is the nearest. -/
theorem exists_spells_write (l : Layout) {x : Binary64} (h : x.isFinite = true) :
    ∃ m, SpellsPlainly (x.write l) m ∧ ofDecimal m.decimal = x := by
  rcases hdigits : shortest x.magnitude.val with ⟨n, last⟩
  rw [write_of_isFinite h hdigits]
  by_cases hzero : x.magnitude.val = 0
  · have hdigit : IsWholePart ['0'] := isWholePart_singleton rfl
    have hspells := SpellsPlainly.mk x.negative (.pointed hdigit hdigit.1) .missing (by simp)
    rw [if_pos hzero]
    exact ⟨_, hspells, ofDecimal_eq h rfl (hzero ▸ if_pos rfl)⟩
  · have hreads := gridBits_shortest hzero (of_decide_eq_true h)
    rw [hdigits] at hreads
    have hn : n ≠ 0 := fun hn => by
      rw [gridBits, decimalBits, if_pos hn] at hreads
      exact hzero hreads.symm
    obtain ⟨m, hspells, hsign, hnumber⟩ := exists_spells_layOut l hn last x.negative
    rw [if_neg hzero]
    exact ⟨m, hspells, ofDecimal_eq h hsign ((decimalBits_congr hnumber).trans hreads)⟩

end Binary64

end Unformat
