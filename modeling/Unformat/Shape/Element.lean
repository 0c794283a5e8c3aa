/-
The types of the elements of a shape, and how a value is fitted to one:

- to a 32-bit integer by wrapping around or, if that is asked for, not
  at all unless it is one already;
- to a single character if it is one;
- to a decimal or a floating-point number from a number.

Where a type has no rule for a value, the value stays as it is.
-/
import Unformat.Directive.Kind

namespace Unformat

/-- The type of one element of a shape. -/
inductive ElementType where
  | str
  | char
  | bool
  | int64
  | int32
  | uint32
  | decimal
  | float
deriving DecidableEq

namespace ElementType

/-- The name of a type. -/
def name : ElementType → String
  | .str => "str"
  | .char => "char"
  | .bool => "bool"
  | .int64 => "int64"
  | .int32 => "int32"
  | .uint32 => "uint32"
  | .decimal => "decimal"
  | .float => "float"

/-- All types, in the order in which messages list them. -/
def all : List ElementType :=
  [.str, .char, .bool, .int64, .int32, .uint32, .decimal, .float]

end ElementType

/-- Whether the values of a kind can take a type. -/
def Kind.suits : Kind → ElementType → Bool
  | .string, .str | .string, .char => true
  | .char, .char | .char, .str => true
  | .bool, .bool => true
  | .int, .int64 | .int, .int32 | .int, .uint32 | .int, .decimal | .int, .float => true
  | .decimal, .decimal | .decimal, .float => true
  | .hex, .int64 | .hex, .int32 | .hex, .uint32 => true
  | _, _ => false

-- ============================================================ fitting

/-- What becomes of an integer beyond the range of a 32-bit type. -/
inductive Narrowing where
  | wrap
  | checked
deriving DecidableEq

/-- An integer is too large for a floating-point number. -/
inductive Overflow where
  | intTooLarge
deriving DecidableEq

/-- The text of an overflow. -/
def Overflow.message : Overflow → String
  | .intTooLarge => "int too large to convert to float"

/-- The integer of the signed 32-bit range with the same low 32
bits. -/
def wrapSigned32 (n : Int) : Int :=
  (n + 0x80000000) % 0x100000000 - 0x80000000

/-- The integer of the unsigned 32-bit range with the same low 32
bits. -/
def wrapUnsigned32 (n : Int) : Int :=
  n % 0x100000000

/-- The wrapped integer, unless wrapping changed it and that is
checked. -/
def narrow (narrowing : Narrowing) (wrapped n : Int) : Option Int :=
  if narrowing = .checked ∧ wrapped ≠ n then none else some wrapped

/-- A value as one of a type, or none if it does not fit. Only the step
from an integer to a floating-point number can overflow. -/
def Value.fit (v : Value) (target : ElementType) (narrowing : Narrowing) :
    Except Overflow (Option Value) :=
  match target, v with
  | .int32, .int n => .ok ((narrow narrowing (wrapSigned32 n) n).map .int)
  | .uint32, .int n => .ok ((narrow narrowing (wrapUnsigned32 n) n).map .int)
  | .char, .str t => .ok ((readChar? t).map .str)
  | .decimal, .int n => .ok (some (.decimal (Decimal.ofInt n)))
  | .float, .int n =>
      match Binary64.ofInt? n with
      | some x => .ok (some (.float x))
      | none => .error .intTooLarge
  | .float, .decimal d => .ok (some (.float (Binary64.ofDecimal d)))
  | _, v => .ok (some v)

end Unformat
