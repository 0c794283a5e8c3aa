/-
The values that matching hands over: texts, truth values, integers of
any size, exact decimals and binary floating-point numbers.
-/
import Unformat.Text.CodePoint
import Unformat.Number.Binary64

namespace Unformat

/-- A value of one of five types. -/
inductive Value where
  | str (t : Text)
  | bool (b : Bool)
  | int (n : Int)
  | decimal (d : Decimal)
  | float (x : Binary64)
deriving DecidableEq

end Unformat
