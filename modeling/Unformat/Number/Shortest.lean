/-
The shortest decimal text of a binary floating-point number: the fewest
digits that read back to the number, and of the candidates with so few
digits the nearest. The notation is one record: from which exponents on
a number is written with an exponent, and how its parts look.
-/
import Unformat.Number.Binary64

namespace Unformat

namespace Binary64

/-- A finite magnitude as a numerator and a denominator. -/
def ratio (magnitude : Nat) : Nat × Nat :=
  let field := magnitude / hiddenBit
  let fraction := magnitude % hiddenBit
  let m := if field = 0 then fraction else hiddenBit + fraction
  let e : Int := (if field = 0 then 1 else field : Nat) - (1075 : Int)
  if 0 ≤ e then (m <<< e.toNat, 1) else (m, 1 <<< (-e).toNat)

/-- The digits `n` before the exponent `last` of the last of them, as
the bits of the nearest number. -/
def gridBits (n : Nat) (last : Int) : Nat :=
  decimalBits ⟨false, n, last⟩

/-- The exponent of the first decimal digit of `num / den`: the greatest
one within reach whose power of ten is not above the quotient. The
search starts above every number and comes down. -/
def firstExponent (num den : Nat) : Int :=
  let rec down : Nat → Int
    | 0 => -400
    | k + 1 =>
        let e : Int := (k : Int) - 400
        let reached :=
          if 0 ≤ e then den * Nat.pow 10 e.toNat ≤ num else den ≤ num * Nat.pow 10 (-e).toNat
        if reached then e else down k
  down 800

/-- The quotient `num / den` in units of `10 ^ last`: the whole number
of them, and whether what is left is below, at or above one half. -/
def unitsOf (num den : Nat) (last : Int) : Nat × Ordering :=
  let (num, den) :=
    if 0 ≤ last then (num, den * Nat.pow 10 last.toNat) else (num * Nat.pow 10 (-last).toNat, den)
  (num / den, compare (2 * (num % den)) den)

/-- Of the two neighbours of a magnitude on the grid with last digit
`10 ^ last`, the nearer one that reads back to it; from the middle the
even one is taken. -/
def onGrid? (magnitude num den : Nat) (last : Int) : Option Nat :=
  let (n, half) := unitsOf num den last
  let nearer := if half = .lt ∨ (half = .eq ∧ n % 2 = 0) then n else n + 1
  let farther := if nearer = n then n + 1 else n
  if gridBits nearer last = magnitude then some nearer
  else if gridBits farther last = magnitude then some farther
  else none

/-- The fewest digits that read back to a magnitude above zero, as a
number, and the exponent of the last of them. Seventeen always do. -/
def shortest (magnitude : Nat) : Nat × Int :=
  let (num, den) := ratio magnitude
  let first := firstExponent num den
  let rec search : Nat → Int → Nat × Int
    | 0, last => ((unitsOf num den last).1, last)
    | k + 1, last =>
        match onGrid? magnitude num den last with
        | some n => (n, last)
        | none => search k (last - 1)
  search 17 first

-- ============================================================= layout

/-- How a number is laid out: its texts for no number and infinity, and
the exponents of the first digit that are written with plain places. -/
structure Layout where
  notNumber : List Char
  infinity : List Char
  leastPlain : Int
  mostPlain : Int

/-- Digits without the zeros at their end, and how many those were. -/
def trimZeros (ds : List Char) : List Char × Nat :=
  let kept := (ds.reverse.dropWhile (· = '0')).reverse
  (kept, ds.length - kept.length)

/-- An exponent with its sign and at least two digits. -/
def writeExponent (n : Int) : List Char :=
  let ds := Nat.toDigits 10 n.natAbs
  (if n < 0 then '-' else '+') :: (if ds.length < 2 then '0' :: ds else ds)

/-- A decimal grid point in the layout: a number with plain places has
a point and a digit after it, one with an exponent a point only between
digits. -/
def layOut (l : Layout) (n : Nat) (last : Int) : List Char :=
  let (ds, dropped) := trimZeros (Nat.toDigits 10 n)
  let last := last + dropped
  let first := last + ds.length - 1
  if l.leastPlain ≤ first ∧ first ≤ l.mostPlain then
    if 0 ≤ last then ds ++ List.replicate last.toNat '0' ++ ['.', '0']
    else Decimal.pointed ds (-last).toNat
  else Decimal.leading ds ++ 'e' :: writeExponent first

/-- The shortest text of a number in the layout. -/
def write (l : Layout) (x : Binary64) : List Char :=
  let m := x.magnitude.val
  if infinityBits < m then l.notNumber
  else
    (if x.negative then ['-'] else []) ++
      if m = infinityBits then l.infinity
      else if m = 0 then ['0', '.', '0']
      else let (n, last) := shortest m
        layOut l n last

end Binary64

end Unformat
