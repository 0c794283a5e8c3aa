/-
Why a text does not match. Each cause carries what its message shows;
causes fall under eight reasons.
-/
import Unformat.Shape.Element
import Unformat.Text.Quoted

namespace Unformat

/-- The reasons under which causes fall. -/
inductive Reason where
  | literalNotFound
  | unexpectedText
  | emptyValue
  | trailingInput
  | arity
  | shape
  | decode
  | narrowing
deriving DecidableEq

/-- The name of a reason. -/
def Reason.name : Reason → String
  | .literalNotFound => "literal_not_found"
  | .unexpectedText => "unexpected_text"
  | .emptyValue => "empty_value"
  | .trailingInput => "trailing_input"
  | .arity => "arity"
  | .shape => "shape"
  | .decode => "decode"
  | .narrowing => "narrowing"

/-- The cause for which a text does not match. The first six arise when
the text is cut, the others when its pieces are read. -/
inductive Mismatch where
  | unencodable
  | literalNotFound (literal : List Char) (offset : Nat)
  | unexpectedText (gap literal : List Char)
  | emptyValue (index : Nat) (literal : List Char)
  | unseparated (index : Nat)
  | trailingInput (rest : List Char)
  | count (pieces placeholders elements : Nat)
  | misfit (index : Nat) (kind : Kind) (target : ElementType)
  | undecodable (index : Nat) (piece : List Char) (kind : Kind)
  | unfit (index : Nat) (piece : List Char) (target : ElementType)
deriving DecidableEq

namespace Mismatch

/-- The reason under which a cause falls. A value that does not fit is
a matter of narrowing if the type is a 32-bit one. -/
def reason : Mismatch → Reason
  | .unencodable => .decode
  | .literalNotFound .. => .literalNotFound
  | .unexpectedText .. => .unexpectedText
  | .emptyValue .. => .emptyValue
  | .unseparated _ => .arity
  | .trailingInput _ => .trailingInput
  | .count .. => .arity
  | .misfit .. => .shape
  | .undecodable .. => .decode
  | .unfit _ _ target =>
      match target with
      | .int32 | .uint32 => .narrowing
      | _ => .decode

/-- The text of a cause. -/
def detail : Mismatch → String
  | .unencodable => "input is not encodable as UTF-8"
  | .literalNotFound literal offset => s!"literal {quote literal} not found after offset {offset}"
  | .unexpectedText gap literal =>
      s!"unexpected text {quote gap} before literal {quote literal}"
  | .emptyValue index literal => s!"placeholder {index} is empty before literal {quote literal}"
  | .unseparated index => s!"placeholder {index} is not separated from the next by a literal"
  | .trailingInput rest => s!"unmatched trailing text {quote rest}"
  | .count pieces placeholders elements =>
      s!"extracted {pieces} value(s) for {placeholders} placeholder(s) " ++
        s!"and a shape of {elements}"
  | .misfit index kind target =>
      s!"placeholder {index} decodes {kind.name}, shape expects {target.name}"
  | .undecodable index piece kind =>
      s!"placeholder {index}: {quote piece} is not a valid {kind.name}"
  | .unfit index piece target => s!"placeholder {index}: {quote piece} does not fit {target.name}"

end Mismatch

end Unformat
