/-
Binary floating-point numbers of 64 bits, as a sign and the remaining
63 bits read as one number. That number grows with the magnitude it
stands for, so rounding up from one magnitude to the next, across a
power of two and into infinity, is adding one.
-/
import Unformat.Number.Decimal

namespace Unformat

/-- A binary floating-point number of 64 bits. -/
structure Binary64 where
  negative : Bool
  magnitude : Fin 0x8000000000000000
deriving DecidableEq

namespace Binary64

/-- The bit above the 52 that are stored of a number's digits. -/
def hiddenBit : Nat := 0x10000000000000

/-- The magnitude bits of an infinity; those above it are of no
number. -/
def infinityBits : Nat := 0x7FF0000000000000

/-- The bit of the sign. -/
def signBit : Nat := 0x8000000000000000

/-- What stands for no number at all. -/
def notNumber : Binary64 :=
  ⟨false, ⟨0x7FF8000000000000, by decide⟩⟩

/-- Whether it is neither an infinity nor no number at all. -/
def isFinite (x : Binary64) : Bool :=
  x.magnitude.val < infinityBits

/-- The number with these 64 bits; higher bits are dropped. -/
def ofBits (n : Nat) : Binary64 :=
  ⟨n / signBit % 2 == 1, ⟨n % signBit, Nat.mod_lt _ (by decide)⟩⟩

/-- The 64 bits of a number. -/
def toBits (x : Binary64) : Nat :=
  (if x.negative then signBit else 0) + x.magnitude.val

-- =========================================================== rounding

/-- The quotient `num / den` rounded to the nearest integer, and from
the middle to the even one. -/
def roundDiv (num den : Nat) : Nat :=
  let q := num / den
  let r := num % den
  if 2 * r < den then q
  else if den < 2 * r then q + 1
  else q + q % 2

/-- The binary exponent of the last of 53 bits of `num / den`, and no
smaller than the smallest there is. -/
def lastExponent (num den : Nat) : Int :=
  let k : Int := (num.log2 : Int) - den.log2
  let below := if 0 ≤ k then num < den <<< k.toNat else num <<< (-k).toNat < den
  max (-1074) (if below then k - 53 else k - 52)

/-- The magnitude bits of the quotient `num / den` rounded to the
nearest; from `infinityBits` on it is too large for a number. -/
def roundedBits (num den : Nat) : Nat :=
  let e := lastExponent num den
  let m := if 0 ≤ e then roundDiv num (den <<< e.toNat) else roundDiv (num <<< (-e).toNat) den
  (e + 1074).toNat * hiddenBit + m

/-- The number with these magnitude bits, or infinity if they are too
large. -/
def clamped (negative : Bool) (bits : Nat) : Binary64 :=
  ⟨negative, ⟨min bits infinityBits, Nat.lt_of_le_of_lt (Nat.min_le_right _ _) (by decide)⟩⟩

/-- An infinity. -/
def infinity (negative : Bool) : Binary64 :=
  clamped negative infinityBits

/-- The number nearest to an integer, unless the integer is too
large. -/
def ofInt? (n : Int) : Option Binary64 :=
  if n = 0 then some (clamped false 0)
  else
    let bits := roundedBits n.natAbs 1
    if bits < infinityBits then some (clamped (n < 0) bits) else none

/-- The magnitude bits of a decimal. Where the first digit is hundreds
of places away the answer is infinity or zero, and no power of ten is
formed. -/
def decimalBits (d : Decimal) : Nat :=
  if d.coefficient = 0 then 0
  else if 400 < d.adjusted then infinityBits
  else if d.adjusted < -400 then 0
  else if 0 ≤ d.exponent then roundedBits (d.coefficient * Nat.pow 10 d.exponent.toNat) 1
  else roundedBits d.coefficient (Nat.pow 10 (-d.exponent).toNat)

/-- The number nearest to a decimal; beyond the largest number it is
infinity. -/
def ofDecimal (d : Decimal) : Binary64 :=
  clamped d.negative (decimalBits d)

/-- Reads the number nearest to a decimal of any size. -/
def read? (cs : List Char) : Option Binary64 :=
  (Decimal.readUnbounded? cs).map ofDecimal

-- ========================================================= arithmetic

/-- How many of the least numbers above zero make one. -/
def unitsPerOne : Nat := 1 <<< 1074

/-- A number in units of the least one above zero. An infinity counts as
the first power of two beyond all numbers. -/
def units (x : Binary64) : Int :=
  let field := x.magnitude.val / hiddenBit
  let fraction := x.magnitude.val % hiddenBit
  signed x.negative (if field = 0 then fraction else (hiddenBit + fraction) <<< (field - 1))

/-- The sum of two numbers, rounded. -/
def plus (x y : Binary64) : Binary64 :=
  let sum := x.units + y.units
  clamped (sum < 0) (roundedBits sum.natAbs unitsPerOne)

/-- The product of two numbers, rounded. -/
def times (x y : Binary64) : Binary64 :=
  clamped (x.negative != y.negative)
    (roundedBits (x.units.natAbs * y.units.natAbs) (unitsPerOne * unitsPerOne))

end Binary64

end Unformat
