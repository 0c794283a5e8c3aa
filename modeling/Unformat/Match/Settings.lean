/-
The options of a match, each a choice of two. A choice is written by
its name, and read in any letter case.
-/
import Unformat.Shape.Element

namespace Unformat

/-- What becomes of a match in which one value cannot be read: it
fails, or it goes on without the value. -/
inductive Policy where
  | strict
  | lenient
deriving DecidableEq

/-- The name of a policy. -/
def Policy.name : Policy → String
  | .strict => "strict"
  | .lenient => "lenient"

/-- The name of a way to read base sixteen. -/
def HexReading.name : HexReading → String
  | .legacy => "legacy"
  | .base16 => "base16"

/-- The name of a way to narrow integers. -/
def Narrowing.name : Narrowing → String
  | .wrap => "wrap"
  | .checked => "checked"

/-- All policies. -/
def Policy.all : List Policy := [.strict, .lenient]

/-- All ways to read base sixteen. -/
def HexReading.all : List HexReading := [.legacy, .base16]

/-- All ways to narrow integers. -/
def Narrowing.all : List Narrowing := [.wrap, .checked]

/-- The options of a match. -/
structure Settings where
  policy : Policy := .strict
  hexMode : HexReading := .legacy
  narrowing : Narrowing := .wrap
deriving DecidableEq

end Unformat
