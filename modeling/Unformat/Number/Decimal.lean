/-
Exact decimal numbers: a sign, a coefficient and a power of ten, kept
as they were written, so that 1.50 and 1.5 differ and a zero keeps its
sign and its places. Reading loses no digit, and the written form reads
back to the same three parts.
-/
import Unformat.Number.Integer

namespace Unformat

/-- The number `± coefficient * 10 ^ exponent`. -/
structure Decimal where
  negative : Bool
  coefficient : Nat
  exponent : Int
deriving DecidableEq

namespace Decimal

/-- The digits of the coefficient; zero has one. -/
def digits (d : Decimal) : List Char :=
  Nat.toDigits 10 d.coefficient

/-- The exponent of the first digit of the coefficient. -/
def adjusted (d : Decimal) : Int :=
  d.exponent + d.digits.length - 1

/-- The decimal of an integer, with exponent zero. -/
def ofInt (n : Int) : Decimal :=
  ⟨n < 0, n.natAbs, 0⟩

-- ============================================================= limits

/-- The largest exponent that a first digit may have. -/
def maxAdjusted : Int := 999999999999999999

/-- The smallest exponent that a last digit may have. -/
def minExponent : Int := -1999999999999999997

/-- Whether a decimal lies within the limits; a zero has to as well. -/
def withinLimits (d : Decimal) : Bool :=
  d.adjusted ≤ maxAdjusted && minExponent ≤ d.exponent

-- ============================================================ reading

/-- The digits at the front of a text, and what follows them. -/
def spanDigits (cs : List Char) : List Char × List Char :=
  (cs.takeWhile Char.isDigit, cs.dropWhile Char.isDigit)

/-- The digits behind a point, if one stands in front, and what follows
them. -/
def spanFraction : List Char → List Char × List Char
  | '.' :: cs => spanDigits cs
  | cs => ([], cs)

/-- Reads the exponent at the end of a number; where nothing is left it
is zero. -/
def readExponent? : List Char → Option Int
  | [] => some 0
  | 'e' :: cs => readInteger? cs
  | 'E' :: cs => readInteger? cs
  | _ => none

/-- Reads a decimal of any size: a sign, digits with a point before,
between or after them, and an exponent; sign, point and exponent may be
missing. -/
def readUnbounded? (cs : List Char) : Option Decimal :=
  let (negative, unsigned) := takeSign cs
  let (whole, rest) := spanDigits unsigned
  let (fraction, rest) := spanFraction rest
  if whole = [] ∧ fraction = [] then none
  else
    (readExponent? rest).map fun exponent =>
      ⟨negative, digitsValue (whole ++ fraction), exponent - fraction.length⟩

/-- Reads a decimal; a number beyond the limits is none. -/
def read? (cs : List Char) : Option Decimal :=
  (readUnbounded? cs).filter withinLimits

-- ============================================================ writing

/-- Digits with the last `places` of them behind a point, and zeros put
in front where there are too few. -/
def pointed (ds : List Char) (places : Nat) : List Char :=
  if places = 0 then ds
  else if places < ds.length then
    ds.take (ds.length - places) ++ '.' :: ds.drop (ds.length - places)
  else '0' :: '.' :: List.replicate (places - ds.length) '0' ++ ds

/-- Digits with a point behind the first, if there are more. -/
def leading : List Char → List Char
  | d :: e :: ds => d :: '.' :: e :: ds
  | ds => ds

/-- An exponent with its sign, which it always has. -/
def writeExponent (n : Int) : List Char :=
  (if n < 0 then '-' else '+') :: Nat.toDigits 10 n.natAbs

/-- Writes a decimal: with plain places if its exponent is not above
zero and its first digit not below the sixth place, and with an
exponent otherwise. -/
def write (d : Decimal) : List Char :=
  (if d.negative then ['-'] else []) ++
    if d.exponent ≤ 0 ∧ -6 ≤ d.adjusted then pointed d.digits d.exponent.natAbs
    else leading d.digits ++ 'E' :: writeExponent d.adjusted

end Decimal

end Unformat
