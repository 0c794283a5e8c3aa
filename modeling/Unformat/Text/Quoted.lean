/-
Texts in quotation marks, as messages and listings show them. The mark
is the apostrophe unless the text holds one and no double quote. The
mark itself and the backslash are escaped by a backslash, line feeds,
returns and tabs by a letter, and every other code point that cannot be
shown by its number in two, four or eight hexadecimal digits. So a
quoted text is one line of printable characters.
-/
import Unformat.Text.Printable

namespace Unformat

/-- The last `width` digits of `n` in base sixteen, in small letters. -/
def hexDigits : (width n : Nat) → List Char
  | 0, _ => []
  | width + 1, n => hexDigits width (n / 16) ++ [Nat.digitChar (n % 16)]

@[simp] theorem length_hexDigits (width n : Nat) : (hexDigits width n).length = width := by
  induction width generalizing n with
  | zero => rfl
  | succ width ih => simp [hexDigits, ih]

namespace Quoted

/-- The escape of a code point by its number. -/
def numbered (n : Nat) : List Char :=
  if n < 0x100 then '\\' :: 'x' :: hexDigits 2 n
  else if n < 0x10000 then '\\' :: 'u' :: hexDigits 4 n
  else '\\' :: 'U' :: hexDigits 8 n

/-- A code point as it stands between two marks. -/
def escape (mark : Char) (p : CodePoint) : List Char :=
  match p with
  | .lone _ => numbered p.value
  | .char c =>
      if c = mark ∨ c = '\\' then ['\\', c]
      else if c = '\n' then ['\\', 'n']
      else if c = '\r' then ['\\', 'r']
      else if c = '\t' then ['\\', 't']
      else if p.isPrintable then [c]
      else numbered p.value

/-- The quotation mark for a text. -/
def mark (t : Text) : Char :=
  if CodePoint.char '\'' ∈ t ∧ CodePoint.char '"' ∉ t then '"' else '\''

/-- A text between quotation marks, character by character. -/
def write (t : Text) : List Char :=
  mark t :: t.flatMap (escape (mark t)) ++ [mark t]

end Quoted

/-- A text between quotation marks. -/
def Text.quoted (t : Text) : String :=
  String.ofList (Quoted.write t)

/-- Characters between quotation marks. -/
def quote (cs : List Char) : String :=
  (Text.ofChars cs).quoted

end Unformat
