/-
Literals in a text. A literal stands wherever the text agrees with it
character by character up to case, and it is found at the leftmost such
place.
-/
import Unformat.Text.Fold

namespace Unformat

namespace Literal

/-- Whether a literal stands at the front of a text. -/
def agrees : (literal text : List Char) → Bool
  | [], _ => true
  | _ :: _, [] => false
  | a :: as, c :: cs => fold a == fold c && agrees as cs

/-- The leftmost offset of a literal in a text. -/
def offset? (literal : List Char) : (text : List Char) → Option Nat
  | [] => if literal = [] then some 0 else none
  | c :: cs => if agrees literal (c :: cs) then some 0 else (offset? literal cs).map (· + 1)

/-- Start and end of a literal's leftmost place in a text from a
position on. A position outside the text acts as the nearer end of it,
but the empty literal is found at the very position. -/
def span? (literal text : List Char) (pos : Int) : Option (Int × Int) :=
  if literal = [] then some (pos, pos)
  else
    let start := min pos.toNat text.length
    (offset? literal (text.drop start)).map fun k =>
      ((start + k : Nat), (start + k + literal.length : Nat))

/-- A text that agrees with a literal from end to end. -/
def accept? (literal text : List Char) : Option (List Char) :=
  if foldAll literal = foldAll text then some text else none

end Literal

end Unformat
