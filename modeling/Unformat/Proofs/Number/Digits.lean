/-
Written integers read back. In base ten a number is written without
leading zeros, but the readers skip those, so what is proved of them is
more: zeros in front change neither the value nor which digits count
(`digitsValue_dropWhile_zero`). In base sixteen the digits of a 64-bit
word read back to the word, and the word to the signed integer of which
it is the two's complement (`ofWord64_emod`).
-/
import Unformat.Number.Integer

namespace Unformat

-- ============================================================ base ten

/-- A text that starts with a digit has no sign. -/
theorem takeSign_of_isDigit {c : Char} (h : c.isDigit = true) (cs : List Char) :
    takeSign (c :: cs) = (false, c :: cs) := by
  unfold takeSign
  split
  next heq =>
    obtain rfl := (List.cons.inj heq).1
    cases h
  next heq =>
    obtain rfl := (List.cons.inj heq).1
    cases h
  · rfl

theorem toNat_lt_of_isDigit {c : Char} (h : c.isDigit = true) : c.toNat < 0x80 :=
  Nat.lt_of_le_of_lt (Char.isDigit_iff_toNat.mp h).2 (by decide)

theorem isDigit_of_mem_toDigits {n : Nat} {c : Char} (h : c ∈ Nat.toDigits 10 n) :
    c.isDigit = true :=
  Nat.isDigit_of_mem_toDigits (by decide) (by decide) h

theorem all_isDigit_toDigits (n : Nat) : (Nat.toDigits 10 n).all Char.isDigit = true :=
  List.all_eq_true.mpr fun _ => isDigit_of_mem_toDigits

theorem exists_cons_toDigits (n : Nat) :
    ∃ c cs, Nat.toDigits 10 n = c :: cs ∧ c.isDigit = true := by
  obtain ⟨c, cs, h⟩ := List.exists_cons_of_ne_nil (Nat.toDigits_ne_nil (n := n) (b := 10))
  refine ⟨c, cs, h, isDigit_of_mem_toDigits (n := n) ?_⟩
  rw [h]
  exact List.mem_cons_self

/-- Only zero is written with a zero in front. -/
theorem eq_zero_of_head?_toDigits {n : Nat} (h : (Nat.toDigits 10 n).head? = some '0') :
    n = 0 := by
  induction n using Nat.strongRecOn with
  | ind n ih =>
      rw [Nat.toDigits_eq_if (by decide)] at h
      split at h
      next hlt =>
        have hdigit : ∀ d < 10, [Nat.digitChar d].head? = some '0' → d = 0 := by decide
        exact hdigit n hlt h
      next hge =>
        obtain ⟨c, cs, hcons, -⟩ := exists_cons_toDigits (n / 10)
        rw [hcons, List.cons_append, List.head?_cons, ← List.head?_cons (a := c) (l := cs),
          ← hcons] at h
        have hzero := ih (n / 10) (by omega) h
        omega

theorem takeSign_toDigits (n : Nat) :
    takeSign (Nat.toDigits 10 n) = (false, Nat.toDigits 10 n) := by
  obtain ⟨c, cs, h, hc⟩ := exists_cons_toDigits n
  rw [h]
  exact takeSign_of_isDigit hc cs

/-- What is written of an integer splits into its sign and the digits of
its magnitude. -/
theorem takeSign_writeInteger (n : Int) :
    takeSign (writeInteger n) = (decide (n < 0), Nat.toDigits 10 n.natAbs) := by
  unfold writeInteger
  split
  next h => simp [takeSign, h]
  next h => simp [takeSign_toDigits, h]

theorem digitsValue_toDigits (n : Nat) : digitsValue (Nat.toDigits 10 n) = n :=
  Nat.ofDigitChars_ten_toDigits

theorem signed_natAbs (n : Int) : signed (decide (n < 0)) n.natAbs = n := by
  unfold signed
  by_cases h : n < 0
  · simp only [h, decide_true, if_true]
    omega
  · simp only [h, decide_false, Bool.false_eq_true, if_false]
    omega

/-- A zero in front does not count. -/
theorem digitsValue_cons_zero (ds : List Char) : digitsValue ('0' :: ds) = digitsValue ds := by
  unfold digitsValue
  rw [Nat.ofDigitChars_cons]
  rfl

/-- Zeros in front do not count. -/
theorem digitsValue_replicate_append (k : Nat) (ds : List Char) :
    digitsValue (List.replicate k '0' ++ ds) = digitsValue ds := by
  induction k with
  | zero => rfl
  | succ k ih => rw [List.replicate_succ, List.cons_append, digitsValue_cons_zero, ih]

theorem digitsValue_dropWhile_zero (ds : List Char) :
    digitsValue (ds.dropWhile (· = '0')) = digitsValue ds := by
  induction ds with
  | nil => rfl
  | cons d ds ih =>
      by_cases hd : d = '0'
      · subst hd
        rw [List.dropWhile_cons_of_pos rfl, ih, digitsValue_cons_zero]
      · rw [List.dropWhile_cons_of_neg (by simpa using hd)]

theorem fitsInt64_iff {n : Int} :
    fitsInt64 n = true ↔ -0x8000000000000000 ≤ n ∧ n ≤ 0x7FFFFFFFFFFFFFFF := by
  unfold fitsInt64
  rw [Bool.and_eq_true, decide_eq_true_eq, decide_eq_true_eq]
  exact Iff.rfl

/-- A 64-bit integer reads back: it has no more digits than the reader
looks at. -/
theorem readInt64?_writeInteger {n : Int} (h : fitsInt64 n = true) :
    readInt64? (writeInteger n) = some n := by
  have hrange := fitsInt64_iff.mp h
  have hdigits : (Nat.toDigits 10 n.natAbs).length ≤ 19 :=
    (Nat.length_toDigits_le_iff (by decide) (by decide)).mpr (by omega)
  have hsignificant : ((Nat.toDigits 10 n.natAbs).dropWhile (· = '0')).length ≤ 19 :=
    Nat.le_trans (List.dropWhile_sublist _).length_le hdigits
  unfold readInt64?
  rw [takeSign_writeInteger]
  simp only [digitsValue_dropWhile_zero, digitsValue_toDigits, signed_natAbs, h, if_true]
  rw [if_pos ⟨Nat.toDigits_ne_nil, all_isDigit_toDigits _, hsignificant⟩]

/-- Only integers of the 64-bit range are ever read. -/
theorem fitsInt64_of_readInt64? {cs : List Char} {n : Int} (h : readInt64? cs = some n) :
    fitsInt64 n = true := by
  simp only [readInt64?] at h
  split at h
  · split at h
    next hfits => exact Option.some.inj h ▸ hfits
    · cases h
  · cases h

-- ======================================================== base sixteen

theorem readHexFrom?_append (n : Nat) (cs ds : List Char) :
    readHexFrom? n (cs ++ ds) = (readHexFrom? n cs).bind fun m => readHexFrom? m ds := by
  induction cs generalizing n with
  | nil => rfl
  | cons c cs ih =>
      simp only [List.cons_append, readHexFrom?]
      cases hexDigit? c with
      | none => rfl
      | some d => exact ih (16 * n + d)

theorem hexDigit?_digitChar : ∀ d < 16, hexDigit? (Nat.digitChar d) = some d := by
  decide

/-- The digits of a number in base sixteen read back. -/
theorem readHexFrom?_toDigits (n : Nat) : readHexFrom? 0 (Nat.toDigits 16 n) = some n := by
  rw [Nat.toDigits_eq_if (by decide)]
  split
  next hlt => simp [readHexFrom?, hexDigit?_digitChar n hlt]
  next hge =>
    rw [readHexFrom?_append, readHexFrom?_toDigits (n / 16), Option.bind_some]
    simp only [readHexFrom?, hexDigit?_digitChar _ (Nat.mod_lt n (by decide)), Option.bind_some]
    rw [Nat.div_add_mod]

/-- What is read as hexadecimal digits has no mark in front. -/
theorem dropHexMark_of_readHexFrom? {n m : Nat} {cs : List Char}
    (h : readHexFrom? n cs = some m) : dropHexMark cs = cs := by
  unfold dropHexMark
  split
  · cases h
  · cases h
  · rfl

/-- Digits of the same values are read alike, so their letter case does
not matter. -/
theorem readHexFrom?_congr {cs ds : List Char} (h : cs.map hexDigit? = ds.map hexDigit?)
    (n : Nat) : readHexFrom? n cs = readHexFrom? n ds := by
  induction cs generalizing ds n with
  | nil =>
      obtain rfl := List.map_eq_nil_iff.mp h.symm
      rfl
  | cons c cs ih =>
      obtain ⟨d, ds, rfl, hd, hds⟩ := List.map_eq_cons_iff.mp h.symm
      simp only [readHexFrom?, hd]
      cases hexDigit? c with
      | none => rfl
      | some value => exact ih hds.symm (16 * n + value)

/-- A 64-bit word reads back from its digits in either letter case. -/
theorem readWord64?_of_digits {n : Nat} {cs : List Char} (h : n < 0x10000000000000000)
    (hcs : cs.map hexDigit? = (Nat.toDigits 16 n).map hexDigit?) : readWord64? cs = some n := by
  have hread : readHexFrom? 0 cs = some n :=
    (readHexFrom?_congr hcs 0).trans (readHexFrom?_toDigits n)
  have hlength : cs.length = (Nat.toDigits 16 n).length := by
    simpa using congrArg List.length hcs
  have hlen : (Nat.toDigits 16 n).length ≤ 16 :=
    (Nat.length_toDigits_le_iff (by decide) (by decide)).mpr h
  simp only [readWord64?, dropHexMark_of_readHexFrom? hread, hlength]
  rw [if_pos ⟨Nat.length_toDigits_pos, hlen⟩]
  exact hread

theorem hexDigit?_lt {c : Char} {d : Nat} (h : hexDigit? c = some d) : d < 16 := by
  have bounds : ∀ {a b : Char}, a ≤ c ∧ c ≤ b → a.toNat ≤ c.toNat ∧ c.toNat ≤ b.toNat :=
    fun hab => ⟨Char.le_def.mp hab.1, Char.le_def.mp hab.2⟩
  have h0 : '0'.toNat = 48 ∧ '9'.toNat = 57 := by decide
  have ha : 'a'.toNat = 97 ∧ 'f'.toNat = 102 := by decide
  have hA : 'A'.toNat = 65 ∧ 'F'.toNat = 70 := by decide
  unfold hexDigit? at h
  split at h
  next hdigit =>
    have hrange := bounds hdigit
    have hd := Option.some.inj h
    omega
  · split at h
    next hlower =>
      have hrange := bounds hlower
      have hd := Option.some.inj h
      omega
    · split at h
      next hupper =>
        have hrange := bounds hupper
        have hd := Option.some.inj h
        omega
      · cases h

/-- As many digits as there are bound the number. -/
theorem readHexFrom?_lt {n m : Nat} {cs : List Char} (h : readHexFrom? n cs = some m) :
    m < (n + 1) * Nat.pow 16 cs.length := by
  induction cs generalizing n with
  | nil =>
      obtain rfl := Option.some.inj h
      show n < (n + 1) * 1
      omega
  | cons c cs ih =>
      obtain ⟨d, hd, hrest⟩ := Option.bind_eq_some_iff.mp h
      have hlt := hexDigit?_lt hd
      calc m < (16 * n + d + 1) * Nat.pow 16 cs.length := ih hrest
        _ ≤ (n + 1) * 16 * Nat.pow 16 cs.length := Nat.mul_le_mul_right _ (by omega)
        _ = (n + 1) * (Nat.pow 16 cs.length * 16) := by
            rw [Nat.mul_assoc, Nat.mul_comm 16]

/-- Only 64-bit words are ever read. -/
theorem readWord64?_lt {cs : List Char} {n : Nat} (h : readWord64? cs = some n) :
    n < 0x10000000000000000 := by
  simp only [readWord64?] at h
  split at h
  next hlength =>
    have hlt := readHexFrom?_lt h
    have hpow : Nat.pow 16 (dropHexMark cs).length ≤ 0x10000000000000000 :=
      Nat.pow_le_pow_right (by decide) hlength.2
    omega
  · cases h

theorem fitsInt64_ofWord64 {n : Nat} (h : n < 0x10000000000000000) :
    fitsInt64 (ofWord64 n) = true := by
  rw [fitsInt64_iff]
  unfold ofWord64 greatestInt64
  split <;> omega

/-- A signed integer of the 64-bit range is read off its two's
complement. -/
theorem ofWord64_emod {n : Int} (h : fitsInt64 n = true) :
    ofWord64 (n % 0x10000000000000000).toNat = n := by
  have hrange := fitsInt64_iff.mp h
  unfold ofWord64 greatestInt64
  split <;> omega

end Unformat
