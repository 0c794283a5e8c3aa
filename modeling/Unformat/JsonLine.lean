/-
The values of a match as one line of JSON: an array in ASCII. Texts are
written with escapes for quotation marks, backslashes, control
characters and everything beyond ASCII, where a character above U+FFFF
takes two escapes. Decimals are written as texts, so that no digit is
lost; floating-point numbers are written with the fewest digits that
read back.
-/
import Unformat.Text.Quoted
import Unformat.Number.Shortest
import Unformat.Value

namespace Unformat.JsonLine

/-- How floating-point numbers are written. -/
def layout : Binary64.Layout where
  notNumber := "NaN".toList
  infinity := "Infinity".toList
  leastPlain := -4
  mostPlain := 15

/-- The escape of one 16-bit unit. -/
def unit (n : Nat) : List Char :=
  '\\' :: 'u' :: hexDigits 4 n

/-- The escapes of the 16-bit units of a code point: one, or two above
U+FFFF. -/
def units (n : Nat) : List Char :=
  if n < 0x10000 then unit n
  else unit (0xD800 + (n - 0x10000) / 0x400) ++ unit (0xDC00 + (n - 0x10000) % 0x400)

/-- A code point inside a JSON text. -/
def escape (p : CodePoint) : List Char :=
  match p with
  | .lone _ => units p.value
  | .char c =>
      if c = '"' ∨ c = '\\' then ['\\', c]
      else if c = '\n' then ['\\', 'n']
      else if c = '\r' then ['\\', 'r']
      else if c = '\t' then ['\\', 't']
      else if c = '\x0C' then ['\\', 'f']
      else if c = '\x08' then ['\\', 'b']
      else if 0x20 ≤ c.toNat ∧ c.toNat < 0x7F then [c]
      else units p.value

/-- A JSON text. -/
def text (t : Text) : List Char :=
  '"' :: t.flatMap escape ++ ['"']

/-- A value in JSON. -/
def value : Value → List Char
  | .str t => text t
  | .bool true => "true".toList
  | .bool false => "false".toList
  | .int n => writeInteger n
  | .decimal d => text (Text.ofChars d.write)
  | .float x => x.write layout

/-- The elements of an array, with a comma and a space between two. -/
def elements : List Value → List Char
  | [] => []
  | [v] => value v
  | v :: vs => value v ++ ',' :: ' ' :: elements vs

/-- Values as a JSON array. -/
def write (values : List Value) : List Char :=
  '[' :: elements values ++ [']']

end Unformat.JsonLine
