/-
Integers in base sixteen as they are spelled, said without a reader
(`SpellsWord`): the mark of base sixteen, which may be missing, and one
to sixteen digits, letters in either case, each of which counts for a
power of sixteen by the digits behind it (`hexPlaceValue`).

The reader takes these and nothing else (`readWord64?_eq_some_iff`). The
mark starts with a digit, but no digit goes on with it: where a mark
stands in front, what it is made of cannot be digits as a whole
(`dropHexMark_append`).

What is read is a 64-bit word, and the integer handed over is the one of
the signed range that agrees with it modulo 2 ^ 64
(`ofWord64_eq_iff`). In the other mode the mark is put in front of the
text if it was missing, and base ten is read, which ends at the mark
(`readHex?_legacy`).
-/
import Mathlib.Data.Int.ModEq
import Unformat.Directive.Kind
import Unformat.Proofs.Number.Digits

namespace Unformat

-- ============================================== statement vocabulary

/-- The digits of base sixteen in the order of their values, the letters
small. -/
def hexAlphabet : List Char :=
  ['0', '1', '2', '3', '4', '5', '6', '7', '8', '9', 'a', 'b', 'c', 'd', 'e', 'f']

/-- A digit of base sixteen in either letter case. -/
def IsHexDigit (c : Char) : Prop :=
  c.toLower ∈ hexAlphabet

instance (c : Char) : Decidable (IsHexDigit c) :=
  inferInstanceAs (Decidable (c.toLower ∈ hexAlphabet))

/-- The number that digits spell in base sixteen. -/
def hexPlaceValue : List Char → Nat
  | [] => 0
  | d :: ds => hexAlphabet.idxOf d.toLower * 16 ^ ds.length + hexPlaceValue ds

/-- The mark of base sixteen in either letter case, or none. -/
def IsHexMark (mark : List Char) : Prop :=
  mark = [] ∨ mark = ['0', 'x'] ∨ mark = ['0', 'X']

/-- A text that spells a 64-bit word, and the digits in it. -/
inductive SpellsWord : (cs digits : List Char) → Prop where
  | mk {mark digits : List Char} (hmark : IsHexMark mark) (hdigits : ∀ c ∈ digits, IsHexDigit c)
      (hlength : 1 ≤ digits.length ∧ digits.length ≤ 16) : SpellsWord (mark ++ digits) digits

-- ========================================================== characters

theorem hexDigit?_of_not_ascii {c : Char} (hc : 0x80 ≤ c.toNat) : hexDigit? c = none := by
  have hlast : ∀ a : Char, a.toNat < 0x80 → ¬ c ≤ a := fun a ha hle =>
    Nat.not_lt.mpr (Char.le_def.mp hle) (Nat.lt_of_lt_of_le ha hc)
  have h9 := hlast '9' (by decide)
  have hf := hlast 'f' (by decide)
  have hF := hlast 'F' (by decide)
  simp [hexDigit?, h9, hf, hF]

/-- A digit has the value of its place in the alphabet. -/
theorem hexDigit?_eq_some_iff {c : Char} {d : Nat} :
    hexDigit? c = some d ↔ IsHexDigit c ∧ hexAlphabet.idxOf c.toLower = d := by
  unfold IsHexDigit
  by_cases hc : c.toNat < 0x80
  · have h : hexDigit? c =
        if c.toLower ∈ hexAlphabet then some (hexAlphabet.idxOf c.toLower) else none :=
      forall_ascii c hc (by decide)
    rw [h, Option.ite_none_right_eq_some, Option.some_inj]
  · have hascii : ∀ a ∈ hexAlphabet, a.toNat < 0x80 := by simp [hexAlphabet]
    rw [hexDigit?_of_not_ascii (Nat.le_of_not_lt hc)]
    constructor
    · rintro ⟨⟩
    · rintro ⟨hmem, -⟩
      exact absurd (toNat_lt_of_toLower (hascii _ hmem)) hc

theorem hexDigit?_toLower (c : Char) : hexDigit? c.toLower = hexDigit? c := by
  by_cases hc : c.toNat < 0x80
  · exact forall_ascii c hc (by decide)
  · have hlower : ¬ c.toLower.toNat < 0x80 := mt toNat_lt_of_toLower hc
    rw [hexDigit?_of_not_ascii (Nat.le_of_not_lt hc),
      hexDigit?_of_not_ascii (Nat.le_of_not_lt hlower)]

-- ============================================================== digits

/-- The reader of digits goes from the left, with the number read so far
in hand. -/
theorem readHexFrom?_eq_some_iff {cs : List Char} {n m : Nat} :
    readHexFrom? n cs = some m ↔
      (∀ c ∈ cs, IsHexDigit c) ∧ n * 16 ^ cs.length + hexPlaceValue cs = m := by
  induction cs generalizing n with
  | nil => simp [readHexFrom?, hexPlaceValue]
  | cons c cs ih =>
      have hvalue : ∀ d, (16 * n + d) * 16 ^ cs.length + hexPlaceValue cs =
          n * 16 ^ (c :: cs).length + (d * 16 ^ cs.length + hexPlaceValue cs) := fun d => by
        rw [List.length_cons, Nat.pow_succ, Nat.add_mul, Nat.mul_comm 16 n, Nat.mul_assoc,
          Nat.mul_comm 16, Nat.add_assoc]
      simp only [readHexFrom?, Option.bind_eq_some_iff, hexDigit?_eq_some_iff, ih, hvalue,
        List.forall_mem_cons, hexPlaceValue]
      constructor
      · rintro ⟨d, ⟨hc, rfl⟩, hcs, hm⟩
        exact ⟨⟨hc, hcs⟩, hm⟩
      · rintro ⟨⟨hc, hcs⟩, hm⟩
        exact ⟨_, ⟨hc, rfl⟩, hcs, hm⟩

theorem hexPlaceValue_append (ds es : List Char) :
    hexPlaceValue (ds ++ es) = hexPlaceValue ds * 16 ^ es.length + hexPlaceValue es := by
  induction ds with
  | nil => simp [hexPlaceValue]
  | cons d ds ih =>
      rw [List.cons_append, hexPlaceValue, hexPlaceValue, ih, List.length_append, Nat.pow_add,
        Nat.add_mul, Nat.mul_assoc, Nat.add_assoc]

/-- Zeros in front do not count. -/
theorem hexPlaceValue_replicate_append (k : Nat) (ds : List Char) :
    hexPlaceValue (List.replicate k '0' ++ ds) = hexPlaceValue ds := by
  induction k with
  | zero => rfl
  | succ k ih =>
      have hzero : hexAlphabet.idxOf '0'.toLower = 0 := by decide
      rw [List.replicate_succ, List.cons_append, hexPlaceValue, hzero, Nat.zero_mul, Nat.zero_add,
        ih]

theorem hexPlaceValue_lt {ds : List Char} (h : ∀ c ∈ ds, IsHexDigit c) :
    hexPlaceValue ds < 16 ^ ds.length := by
  have hread : readHexFrom? 0 ds = some (hexPlaceValue ds) :=
    readHexFrom?_eq_some_iff.mpr ⟨h, by rw [Nat.zero_mul, Nat.zero_add]⟩
  have hlt := readHexFrom?_lt hread
  rw [Nat.zero_add, Nat.one_mul] at hlt
  exact hlt

/-- The last digits spell the remainder. -/
theorem hexPlaceValue_drop {ds : List Char} (h : ∀ c ∈ ds, IsHexDigit c) (k : Nat) :
    hexPlaceValue (ds.drop (ds.length - k)) = hexPlaceValue ds % 16 ^ k := by
  by_cases hk : k ≤ ds.length
  · have hback : ∀ c ∈ ds.drop (ds.length - k), IsHexDigit c := fun c hc =>
      h c (List.mem_of_mem_drop hc)
    have hlength : (ds.drop (ds.length - k)).length = k := by
      rw [List.length_drop, Nat.sub_sub_self hk]
    have hlt := hexPlaceValue_lt hback
    have hsplit := hexPlaceValue_append (ds.take (ds.length - k)) (ds.drop (ds.length - k))
    rw [List.take_append_drop] at hsplit
    rw [hlength] at hlt hsplit
    rw [hsplit, Nat.mul_add_mod_of_lt hlt]
  · have hall : ds.length - k = 0 := by omega
    have hpow : 16 ^ ds.length ≤ 16 ^ k := Nat.pow_le_pow_right (by decide) (by omega)
    rw [hall, List.drop_zero, Nat.mod_eq_of_lt (Nat.lt_of_lt_of_le (hexPlaceValue_lt h) hpow)]

/-- What is written of a number in either letter case are digits that
spell it. -/
theorem hexPlaceValue_of_toLower {ds : List Char} {n : Nat}
    (h : ds.map Char.toLower = Nat.toDigits 16 n) :
    (∀ c ∈ ds, IsHexDigit c) ∧ hexPlaceValue ds = n := by
  have hvalues : ds.map hexDigit? = (Nat.toDigits 16 n).map hexDigit? := by
    rw [← h, List.map_map]
    exact List.map_congr_left fun c _ => (hexDigit?_toLower c).symm
  have hread := (readHexFrom?_congr hvalues 0).trans (readHexFrom?_toDigits n)
  rw [readHexFrom?_eq_some_iff, Nat.zero_mul, Nat.zero_add] at hread
  exact hread

-- =============================================================== words

/-- A mark is taken off digits. -/
theorem dropHexMark_append {mark digits : List Char} (hmark : IsHexMark mark)
    (hdigits : ∀ c ∈ digits, IsHexDigit c) : dropHexMark (mark ++ digits) = digits := by
  rcases hmark with rfl | rfl | rfl
  · exact dropHexMark_of_readHexFrom? (readHexFrom?_eq_some_iff (n := 0).mpr ⟨hdigits, rfl⟩)
  · rfl
  · rfl

/-- What is taken off a text is a mark. -/
theorem exists_isHexMark (cs : List Char) :
    ∃ mark, IsHexMark mark ∧ cs = mark ++ dropHexMark cs := by
  unfold dropHexMark
  split
  · exact ⟨['0', 'x'], .inr (.inl rfl), rfl⟩
  · exact ⟨['0', 'X'], .inr (.inr rfl), rfl⟩
  · exact ⟨[], .inl rfl, rfl⟩

/-- The reader of words reads what is spelled. -/
theorem readWord64?_eq_some_iff {cs : List Char} {n : Nat} :
    readWord64? cs = some n ↔ ∃ digits, SpellsWord cs digits ∧ hexPlaceValue digits = n := by
  simp only [readWord64?, Option.ite_none_right_eq_some, readHexFrom?_eq_some_iff, Nat.zero_mul,
    Nat.zero_add]
  constructor
  · rintro ⟨hlength, hdigits, hn⟩
    obtain ⟨mark, hmark, hcs⟩ := exists_isHexMark cs
    refine ⟨dropHexMark cs, ?_, hn⟩
    have hspells := SpellsWord.mk hmark hdigits hlength
    rwa [← hcs] at hspells
  · rintro ⟨digits, ⟨hmark, hdigits, hlength⟩, hn⟩
    rw [dropHexMark_append hmark hdigits]
    exact ⟨hlength, hdigits, hn⟩

theorem SpellsWord.isHexDigit {cs digits : List Char} (h : SpellsWord cs digits) :
    ∀ c ∈ digits, IsHexDigit c := by
  obtain ⟨-, hdigits, -⟩ := h
  exact hdigits

/-- Sixteen digits spell no more than 64 bits. -/
theorem SpellsWord.lt {cs digits : List Char} (h : SpellsWord cs digits) :
    hexPlaceValue digits < 2 ^ 64 :=
  readWord64?_lt (readWord64?_eq_some_iff.mpr ⟨digits, h, rfl⟩)

/-- What is written of a number, in either letter case, spells it as a
word, with a mark or without, and with any zeros in front that leave
sixteen digits or less. -/
theorem spellsWord_of_toLower {mark digits : List Char} {n zeros : Nat} (hmark : IsHexMark mark)
    (hdigits : digits.map Char.toLower = Nat.toDigits 16 n)
    (hlength : zeros + digits.length ≤ 16) :
    SpellsWord (mark ++ (List.replicate zeros '0' ++ digits)) (List.replicate zeros '0' ++ digits) ∧
      hexPlaceValue (List.replicate zeros '0' ++ digits) = n := by
  obtain ⟨hhex, hvalue⟩ := hexPlaceValue_of_toLower hdigits
  have hpos : 1 ≤ digits.length := by
    rw [← List.length_map Char.toLower, hdigits]
    exact Nat.length_toDigits_pos
  have hzero : ∀ c ∈ List.replicate zeros '0', IsHexDigit c := by
    intro c hc
    rw [List.eq_of_mem_replicate hc]
    decide
  constructor
  · apply SpellsWord.mk hmark
    · exact List.forall_mem_append.mpr ⟨hzero, hhex⟩
    · rw [List.length_append, List.length_replicate]
      omega
  · rw [hexPlaceValue_replicate_append, hvalue]

-- ==================================================== two's complement

/-- The signed integer of a word is the one of the signed range that
agrees with it modulo 2 ^ 64. -/
theorem ofWord64_eq_iff {w : Nat} (hw : w < 2 ^ 64) {n : Int} :
    ofWord64 w = n ↔ -2 ^ 63 ≤ n ∧ n ≤ 2 ^ 63 - 1 ∧ n ≡ w [ZMOD 2 ^ 64] := by
  unfold ofWord64 greatestInt64 Int.ModEq
  split <;> omega

/-- What spells a word is read as the signed integer of the word. -/
theorem SpellsWord.readHex?_base16 {cs digits : List Char} (h : SpellsWord cs digits) :
    readHex? .base16 cs = some (ofWord64 (hexPlaceValue digits)) := by
  have hword := readWord64?_eq_some_iff.mpr ⟨digits, h, rfl⟩
  rw [readHex?, hword, Option.map_some]

/-- Base sixteen is read from what spells a word, and from nothing
else. -/
theorem readHex?_base16_eq_some_iff {cs : List Char} {n : Int} :
    readHex? .base16 cs = some n ↔ ∃ digits, SpellsWord cs digits ∧
      -2 ^ 63 ≤ n ∧ n ≤ 2 ^ 63 - 1 ∧ n ≡ hexPlaceValue digits [ZMOD 2 ^ 64] := by
  constructor
  · intro hread
    obtain ⟨w, hword, hn⟩ := Option.map_eq_some_iff.mp hread
    obtain ⟨digits, hspells, rfl⟩ := readWord64?_eq_some_iff.mp hword
    exact ⟨digits, hspells, (ofWord64_eq_iff hspells.lt).mp hn⟩
  · intro ⟨digits, hspells, hn⟩
    rw [hspells.readHex?_base16, (ofWord64_eq_iff hspells.lt).mpr hn]

-- ===================================================== base ten instead

/-- A text with the mark in front is no integer in base ten, whatever
the text is. -/
theorem readInt64?_markHex (cs : List Char) : readInt64? (markHex cs) = none := by
  obtain ⟨rest, hmarked⟩ : ∃ rest, markHex cs = '0' :: 'x' :: rest := by
    unfold markHex
    split
    next hfront =>
      obtain ⟨rest, hrest⟩ := List.isPrefixOf_iff_prefix.mp hfront
      exact ⟨rest, hrest.symm⟩
    · exact ⟨_, rfl⟩
  simp [hmarked, readInt64?, takeSign]

/-- So that mode reads nothing, whatever lower-casing makes of the
text. -/
theorem readHex?_legacy (cs : List Char) : readHex? .legacy cs = none :=
  readInt64?_markHex (lowerAll cs)

end Unformat
