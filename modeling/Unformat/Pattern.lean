/-
Patterns: the tokens of a directive and the shape of the values that a
match shall have. A pattern is valid if its shape has one element for
each placeholder and each element's type can take the values of the
placeholder's kind.

A directive makes no pattern if one of its literals cannot be encoded, or
if an entry of the shape has no type; of the two the first is found
first.
-/
import Unformat.Directive.Tokens
import Unformat.Shape.Entry

namespace Unformat

/-- Tokens and the shape of their values; the directive is kept for
messages. -/
structure Pattern where
  directive : Text
  tokens : List Token
  shape : Shape

/-- Why there is no pattern, or no valid one. -/
inductive PatternFault where
  | encoding (fault : EncodingFault)
  | shape (fault : ShapeFault)

/-- The text of a refusal. -/
def PatternFault.message : PatternFault → String
  | .encoding fault => fault.message
  | .shape fault => fault.message

namespace Pattern

/-- The pattern of a directive. -/
def ofDirective (directive : Text) (entries : List ShapeEntry) : Except PatternFault Pattern := do
  let tokens ← (Directive.tokens directive).mapError .encoding
  let shape ← (Shape.ofEntries entries).mapError .shape
  return ⟨directive, tokens, shape⟩

/-- The kinds of the placeholders, in order. -/
def kinds (p : Pattern) : List Kind :=
  p.tokens.filterMap Token.kind?

/-- The texts of the literals, in order. -/
def literals (p : Pattern) : List (List Char) :=
  p.tokens.filterMap Token.text?

/-- The first placeholder, by index from `index` on, whose kind does
not fit the type beside it. -/
def firstMisfit? : (index : Nat) → List Kind → List ElementType →
    Option (Nat × Kind × ElementType)
  | index, kind :: kinds, target :: shape =>
      if kind.suits target then firstMisfit? (index + 1) kinds shape
      else some (index, kind, target)
  | _, _, _ => none

/-- Checks a pattern: first the number of its elements, then each of
them. -/
def check (p : Pattern) : Except ShapeFault Unit :=
  if p.kinds.length ≠ p.shape.length then
    .error (.count p.directive p.kinds.length p.shape.length)
  else
    match firstMisfit? 0 p.kinds p.shape with
    | some (index, kind, target) => .error (.misfit index p.directive kind target)
    | none => .ok ()

end Pattern

end Unformat
