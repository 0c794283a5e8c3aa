/-
What placeholders make of numbers. A piece is read by the kind of its
placeholder and fitted to the type of its element, and for two kinds it
can be told from the spelling of the piece what comes out:

- base sixteen is a 64-bit word in two's complement, and a 32-bit type
  takes the last eight digits, as if there were no others
  (`hex_twos_complement`): that the word is signed at 64 bits does not
  reach the lower half;
- integers are among the decimals, and an element for decimals takes the
  same from either kind, but for the sign of a zero
  (`int64_among_decimals`).
-/
import Unformat.Match.Report
import Unformat.Proofs.Number.BaseSixteen
import Unformat.Proofs.Number.Integral
import Unformat.Proofs.Shape.Narrowing

namespace Unformat

variable {cs digits : List Char}

-- ======================================================== base sixteen

/-- A 32-bit type without signs takes the lower half of a word. -/
theorem wrapUnsigned32_ofWord64 (w : Nat) :
    wrapUnsigned32 (ofWord64 w) = (w % 16 ^ 8 : Nat) := by
  unfold wrapUnsigned32 ofWord64
  split <;> omega

/-- A signed 32-bit type takes it as well, in two's complement. -/
theorem wrapSigned32_ofWord64 (w : Nat) :
    wrapSigned32 (ofWord64 w) =
      if w % 16 ^ 8 < 2 ^ 31 then ((w % 16 ^ 8 : Nat) : Int) else (w % 16 ^ 8 : Nat) - 2 ^ 32 := by
  unfold wrapSigned32 ofWord64
  split <;> split <;> omega

/-- What spells a word is read as the signed integer of the word. -/
theorem readPiece_of_spellsWord (h : SpellsWord cs digits) {target : ElementType}
    {narrowing : Narrowing} {v : Value}
    (hfit : (Value.int (ofWord64 (hexPlaceValue digits))).fit target narrowing = .ok (some v))
    (policy : Policy) (index : Nat) :
    readPiece ⟨policy, .base16, narrowing⟩ index cs .hex target = .ok (.ok v) := by
  simp [readPiece, Kind.read?, h.readHex?_base16, hfit]

/-- Base sixteen is read from an optional mark and one to sixteen digits,
and gives the integer of the signed 64-bit range that agrees with their
number modulo 2 ^ 64. Each integer of that range is read from the digits
of its remainder, in either letter case, with a mark or without and with
any zeros in front that leave sixteen digits or less. Wrapping to 32 bits
gives the number of the last eight digits, as it is or in two's
complement. -/
theorem hex_twos_complement :
    (∀ cs n, readHex? .base16 cs = some n ↔ ∃ digits, SpellsWord cs digits ∧
      -2 ^ 63 ≤ n ∧ n ≤ 2 ^ 63 - 1 ∧ n ≡ hexPlaceValue digits [ZMOD 2 ^ 64]) ∧
    (∀ cs, (readHex? .base16 cs).isSome ↔ ∃ digits, SpellsWord cs digits) ∧
    (∀ (n : Int) (mark digits : List Char) (zeros : Nat), -2 ^ 63 ≤ n → n ≤ 2 ^ 63 - 1 →
      IsHexMark mark → digits.map Char.toLower = Nat.toDigits 16 (n % 2 ^ 64).toNat →
      zeros + digits.length ≤ 16 →
      readHex? .base16 (mark ++ (List.replicate zeros '0' ++ digits)) = some n) ∧
    ∀ cs digits policy index, SpellsWord cs digits →
      let low := hexPlaceValue (digits.drop (digits.length - 8))
      readPiece ⟨policy, .base16, .wrap⟩ index cs .hex .uint32 = .ok (.ok (.int low)) ∧
      readPiece ⟨policy, .base16, .wrap⟩ index cs .hex .int32 =
        .ok (.ok (.int (if low < 2 ^ 31 then low else low - 2 ^ 32))) := by
  refine ⟨fun cs n => readHex?_base16_eq_some_iff, fun cs => ?_,
    fun n mark digits zeros hlow hhigh hmark hdigits hlength => ?_,
    fun cs digits policy index h => ?_⟩
  · rw [Option.isSome_iff_exists]
    constructor
    · intro ⟨n, hread⟩
      obtain ⟨digits, hspells, -⟩ := readHex?_base16_eq_some_iff.mp hread
      exact ⟨digits, hspells⟩
    · intro ⟨digits, hspells⟩
      exact ⟨_, hspells.readHex?_base16⟩
  · obtain ⟨hspells, hvalue⟩ := spellsWord_of_toLower hmark hdigits hlength
    refine readHex?_base16_eq_some_iff.mpr ⟨_, hspells, hlow, hhigh, ?_⟩
    rw [hvalue, Int.toNat_of_nonneg (by omega)]
    exact (Int.mod_modEq n _).symm
  · intro low
    have hlow : low = hexPlaceValue digits % 16 ^ 8 := hexPlaceValue_drop h.isHexDigit 8
    rw [hlow]
    refine ⟨readPiece_of_spellsWord h ?_ policy index, readPiece_of_spellsWord h ?_ policy index⟩
    · simp only [Value.fit, narrow_wrap, wrapUnsigned32_ofWord64, Option.map_some]
    · simp only [Value.fit, narrow_wrap, wrapSigned32_ofWord64, Option.map_some]

-- the sign bit of 64 bits lies in front of the last eight digits, the one of 32 bits in them
example : readHex? .base16 "0Xffffffff7FFFFFFF".toList = some (-0x80000001) ∧
    readPiece ⟨.strict, .base16, .wrap⟩ 0 "0Xffffffff7FFFFFFF".toList .hex .int32
      = .ok (.ok (.int 0x7FFFFFFF)) ∧
    readPiece ⟨.strict, .base16, .wrap⟩ 0 "ffffffff".toList .hex .int32
      = .ok (.ok (.int (-1))) := by
  decide

-- ============================================================ decimals

/-- A text that is read as a 64-bit integer is read as a decimal as well,
with the magnitude for its coefficient and no exponent. Both are one
number in an element for decimals, and one decimal unless the text is a
zero with a minus sign. A text that is read as a decimal is read as a
64-bit integer as well, unless it has a point or an exponent or is an
integer out of the range. -/
theorem int64_among_decimals (cs : List Char) :
    (∀ n, readInt64? cs = some n → ∃ d, Decimal.read? cs = some d ∧
      d.exponent = 0 ∧ d.coefficient = n.natAbs ∧
      (∀ options index,
        readPiece options index cs .int .decimal = .ok (.ok (.decimal (Decimal.ofInt n))) ∧
        readPiece options index cs .decimal .decimal = .ok (.ok (.decimal d))) ∧
      (Decimal.ofInt n).number = d.number ∧
      (Decimal.ofInt n = d ↔ ¬ (n = 0 ∧ cs.head? = some '-'))) ∧
    ∀ d, Decimal.read? cs = some d →
      (readInt64? cs = none ↔
        HasPointOrMark cs ∨ ∃ n : ℤ, d.number = n ∧ ¬ (-2 ^ 63 ≤ n ∧ n ≤ 2 ^ 63 - 1)) := by
  refine ⟨fun n h => ?_, fun d => readInt64?_eq_none_iff⟩
  obtain ⟨negative, hread, hsign, hsigned⟩ := Decimal.read?_of_readInt64? h
  refine ⟨_, hread, rfl, rfl, fun options index => ⟨?_, ?_⟩, ?_, ?_⟩
  · simp [readPiece, Kind.read?, h, Value.fit]
  · simp [readPiece, Kind.read?, hread, Value.fit]
  · rw [Decimal.number_ofInt, Decimal.number_of_exponent_zero, hsigned]
  · rw [hsign]
    exact Decimal.ofInt_eq_iff hsigned

-- an exponent that changes nothing is one as well
example : readInt64? "-000".toList = some 0 ∧
    Decimal.read? "-000".toList = some ⟨true, 0, 0⟩ ∧
    Decimal.read? "7e0".toList = some ⟨false, 7, 0⟩ ∧ readInt64? "7e0".toList = none := by
  decide

end Unformat
