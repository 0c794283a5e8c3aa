/-
The kinds of placeholders and how each reads the text that is cut out
for it. A kind reads the whole text or nothing: no blank is skipped.

- `string` takes every text, `char` those of one code point;
- `bool` takes the two words in any letter case;
- `int` takes signed 64-bit integers in base ten;
- `decimal` takes decimals with a point or an exponent, exactly;
- `hex` takes 64-bit words in base sixteen as signed integers, if it is
  told to; otherwise it expects base ten behind the mark of base
  sixteen, which no text can satisfy.
-/
import Unformat.Text.Lower
import Unformat.Value

namespace Unformat

/-- What a placeholder reads. -/
inductive Kind where
  | string
  | char
  | bool
  | int
  | decimal
  | hex
deriving DecidableEq

/-- How the kind `hex` reads. -/
inductive HexReading where
  | legacy
  | base16
deriving DecidableEq

-- ============================================================ readers

/-- A text of one code point. -/
def readChar? (t : Text) : Option Text :=
  if t.length = 1 then some t else none

/-- A truth value by its word in lower case. -/
def readBool? (cs : List Char) : Option Bool :=
  let word := lowerAll cs
  if word = "true".toList then some true
  else if word = "false".toList then some false
  else none

/-- A text with the mark of base sixteen in front, put there if it was
missing. -/
def markHex (cs : List Char) : List Char :=
  if ['0', 'x'].isPrefixOf cs then cs else '0' :: 'x' :: cs

/-- An integer in base sixteen, or in the other mode one in base ten
behind the mark of base sixteen. -/
def readHex? (mode : HexReading) (cs : List Char) : Option Int :=
  match mode with
  | .legacy => readInt64? (markHex (lowerAll cs))
  | .base16 => (readWord64? cs).map ofWord64

-- =========================================================== decoding

namespace Kind

/-- The name of a kind in messages and listings. -/
def name : Kind → String
  | .string => "string"
  | .char => "char"
  | .bool => "bool"
  | .int => "int"
  | .decimal => "decimal"
  | .hex => "hex"

/-- All kinds. -/
def all : List Kind :=
  [.string, .char, .bool, .int, .decimal, .hex]

/-- Reads a whole text. Only `string` and `char` read a text in which a
half of a surrogate pair stands alone. -/
def read? (kind : Kind) (mode : HexReading) (t : Text) : Option Value :=
  match kind with
  | .string => some (.str t)
  | .char => (readChar? t).map .str
  | .bool => (t.chars?.bind readBool?).map .bool
  | .int => (t.chars?.bind readInt64?).map .int
  | .decimal => (t.chars?.bind Decimal.read?).map .decimal
  | .hex => (t.chars?.bind (readHex? mode)).map .int

end Kind

end Unformat
