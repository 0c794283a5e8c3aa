/-
Integers in base ten and base sixteen. The reader of signed integers
takes one optional sign and one or more digits, and nothing else; the
bounded reader looks at no more than nineteen digits after the leading
zeros, since a number with more of them lies outside the 64-bit range
anyway.
-/

namespace Unformat

-- ===================================================== sign and digits

/-- Whether a text starts with a minus sign, and what follows its
sign, if it has one. -/
def takeSign : List Char → Bool × List Char
  | '-' :: cs => (true, cs)
  | '+' :: cs => (false, cs)
  | cs => (false, cs)

/-- The number written by a run of digits in base ten. -/
def digitsValue (ds : List Char) : Nat :=
  Nat.ofDigitChars 10 ds 0

/-- A magnitude with its sign. -/
def signed (negative : Bool) (n : Nat) : Int :=
  if negative then -(n : Int) else n

/-- Reads an integer of any size: a sign, which may be missing, and one
or more digits. -/
def readInteger? (cs : List Char) : Option Int :=
  let (negative, digits) := takeSign cs
  if digits ≠ [] ∧ digits.all Char.isDigit then some (signed negative (digitsValue digits))
  else none

/-- Writes an integer with as few digits as it needs, and a sign only
if it is negative. -/
def writeInteger (n : Int) : List Char :=
  if n < 0 then '-' :: Nat.toDigits 10 n.natAbs else Nat.toDigits 10 n.natAbs

-- ======================================================== 64-bit range

/-- The smallest signed 64-bit integer. -/
def leastInt64 : Int := -0x8000000000000000

/-- The largest signed 64-bit integer. -/
def greatestInt64 : Int := 0x7FFFFFFFFFFFFFFF

/-- Whether an integer is a signed 64-bit one. -/
def fitsInt64 (n : Int) : Bool :=
  leastInt64 ≤ n && n ≤ greatestInt64

/-- Reads a signed 64-bit integer; a number outside the range is none.
Leading zeros are skipped first, and then at most nineteen digits are
ever read. -/
def readInt64? (cs : List Char) : Option Int :=
  let (negative, digits) := takeSign cs
  let significant := digits.dropWhile (· = '0')
  if digits ≠ [] ∧ digits.all Char.isDigit ∧ significant.length ≤ 19 then
    let n := signed negative (digitsValue significant)
    if fitsInt64 n then some n else none
  else none

/-- The signed integer of which a 64-bit word is the two's
complement. -/
def ofWord64 (n : Nat) : Int :=
  if (n : Int) ≤ greatestInt64 then n else n - 0x10000000000000000

-- ======================================================= base sixteen

/-- The value of a hexadecimal digit in either case. -/
def hexDigit? (c : Char) : Option Nat :=
  if '0' ≤ c ∧ c ≤ '9' then some (c.toNat - '0'.toNat)
  else if 'a' ≤ c ∧ c ≤ 'f' then some (c.toNat - 'a'.toNat + 10)
  else if 'A' ≤ c ∧ c ≤ 'F' then some (c.toNat - 'A'.toNat + 10)
  else none

/-- The number written by hexadecimal digits after the number `n`. -/
def readHexFrom? : (n : Nat) → List Char → Option Nat
  | n, [] => some n
  | n, c :: cs => (hexDigit? c).bind fun d => readHexFrom? (16 * n + d) cs

/-- A text without the mark of base sixteen in front, if it has one. -/
def dropHexMark : List Char → List Char
  | '0' :: 'x' :: cs => cs
  | '0' :: 'X' :: cs => cs
  | cs => cs

/-- Reads a 64-bit word: the mark of base sixteen, which may be
missing, and one to sixteen hexadecimal digits. -/
def readWord64? (cs : List Char) : Option Nat :=
  let digits := dropHexMark cs
  if 1 ≤ digits.length ∧ digits.length ≤ 16 then readHexFrom? 0 digits else none

end Unformat
