/-
Cutting a text by the tokens of a pattern. The walk goes through the
tokens once, from left to right, with the text that is still ahead:

- a literal is found at its leftmost place ahead; what stands before it
  is the piece of the placeholder in front of it, and must not be empty
  then, and must be empty if no placeholder is waiting;
- a placeholder waits for the next literal, and one that is the last
  token takes all that is ahead;
- in the end nothing may be left.

A literal is never looked for again, so nothing is undone.
-/
import Unformat.Match.Literal
import Unformat.Match.Mismatch
import Unformat.Directive.Token

namespace Unformat

namespace Pieces

/-- The pieces that the tokens cut out of `ahead`, with `offset`
characters already passed, `index` pieces already cut, and a
placeholder waiting or not. -/
def walk : List Token → (offset index : Nat) → (waiting : Bool) → (ahead : List Char) →
    Except Mismatch (List (List Char))
  | [], _, _, _, ahead => if ahead = [] then .ok [] else .error (.trailingInput ahead)
  | .literal literal :: tokens, offset, index, waiting, ahead =>
      match Literal.offset? literal ahead with
      | none => .error (.literalNotFound literal offset)
      | some k =>
          let gap := ahead.take k
          let next := k + literal.length
          if k = 0 then
            if waiting then .error (.emptyValue index literal)
            else walk tokens (offset + next) index false (ahead.drop next)
          else if waiting then
            (walk tokens (offset + next) (index + 1) false (ahead.drop next)).map (gap :: ·)
          else .error (.unexpectedText gap literal)
  | .placeholder _ :: tokens, offset, index, waiting, ahead =>
      if waiting then .error (.unseparated index)
      else if tokens = [] then .ok [ahead]
      else walk tokens offset index true ahead

end Pieces

/-- One piece of the text for each placeholder, in order. -/
def pieces (tokens : List Token) (cs : List Char) : Except Mismatch (List (List Char)) :=
  Pieces.walk tokens 0 0 false cs

/-- One piece of a text from outside for each placeholder; a text
without characters for all its code points has none. -/
def Text.pieces (tokens : List Token) (t : Text) : Except Mismatch (List (List Char)) :=
  match t.chars? with
  | none => .error .unencodable
  | some cs => Unformat.pieces tokens cs

end Unformat
