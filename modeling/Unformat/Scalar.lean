/-
Data without parts. Truth values count as the numbers one and zero, so
an integer, a floating-point number and a truth value may be the same
key; days and moments are the same key if they are at the same place of
the calendar.

Scalars are in an order only within a family: texts by their code points,
numbers by their values, and days, moments and moments relative to
universal time by their places. Between two families there is none, so
keys of more than one cannot be listed in order (`Scalar.inOrder?`).
-/
import Unformat.Number.Shortest
import Unformat.Text.Quoted
import Unformat.Timestamp

namespace Unformat

/-- A datum without parts. -/
inductive Scalar where
  | null
  | bool (b : Bool)
  | int (n : Int)
  | float (x : Binary64)
  | str (t : Text)
  | timestamp (t : Timestamp)
deriving DecidableEq, Inhabited

namespace Scalar

/-- The text of a word. -/
def word (s : String) : Scalar :=
  .str (Text.ofChars s.toList)

/-- How floating-point numbers are shown. -/
def layout : Binary64.Layout where
  notNumber := "nan".toList
  infinity := "inf".toList
  leastPlain := -4
  mostPlain := 15

/-- A scalar as messages show it. -/
def shown : Scalar → String
  | .null => "None"
  | .bool true => "True"
  | .bool false => "False"
  | .int n => String.ofList (writeInteger n)
  | .float x => String.ofList (x.write layout)
  | .str t => t.quoted
  | .timestamp t => t.shown

/-- The name of the type of a scalar. -/
def typeName : Scalar → String
  | .null => "NoneType"
  | .bool _ => "bool"
  | .int _ => "int"
  | .float _ => "float"
  | .str _ => "str"
  | .timestamp t => t.typeName

-- ============================================================== order

/-- The families of scalars. -/
inductive Family where
  | null
  | number
  | text
  | day
  | moment
  | instant
deriving DecidableEq

/-- The family of a scalar, within which it can be compared. -/
def family : Scalar → Family
  | .null => .null
  | .bool _ | .int _ | .float _ => .number
  | .str _ => .text
  | .timestamp t =>
      match t.clock with
      | none => .day
      | some c => if c.ahead.isSome then .instant else .moment

/-- Where a scalar stands in its family: which infinity it is, if it is
one, and then its value. Texts, null and what is no number stand
nowhere. -/
def rank? : Scalar → Option (Int × Int)
  | .bool b => some (0, if b then Binary64.unitsPerOne else 0)
  | .int n => some (0, n * Binary64.unitsPerOne)
  | .float x =>
      if x.isFinite then some (0, x.units)
      else if x.magnitude.val = Binary64.infinityBits then some (signed x.negative 1, 0)
      else none
  | .timestamp t => some (0, t.place)
  | .null => none
  | .str _ => none

/-- Whether two scalars are one key: they are the same, or stand at the
same place of one family. -/
def sameKey (a b : Scalar) : Bool :=
  a = b || (a.family = b.family && a.rank?.isSome && a.rank? = b.rank?)

/-- Whether a scalar is listed before another one of its family: texts by
their code points, all else by rank. What is no number is before
nothing. -/
def listedBefore : Scalar → Scalar → Bool
  | .str a, .str b => decide (a.map CodePoint.value < b.map CodePoint.value)
  | a, b =>
      match a.rank?, b.rank? with
      | some (i, x), some (j, y) => i < j || (i = j && x < y)
      | _, _ => false

/-- Scalars in order, if all of them are of one family. -/
def inOrder? (scalars : List Scalar) : Option (List Scalar) :=
  if scalars.all fun a => scalars.all fun b => a.family = b.family then
    some (scalars.mergeSort fun a b => !b.listedBefore a)
  else none

end Scalar

end Unformat
