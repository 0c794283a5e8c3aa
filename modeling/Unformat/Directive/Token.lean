/-
Tokens of directives: literals, which stand for themselves, and
placeholders, which stand for a value of some kind. A placeholder is
written as a marker and a letter; a doubled marker stands for a literal
of one marker.
-/
import Unformat.Directive.Kind

namespace Unformat

/-- A piece of a directive. -/
inductive Token where
  | literal (text : List Char)
  | placeholder (kind : Kind)
deriving DecidableEq

namespace Token

/-- The kind of a placeholder. -/
def kind? : Token → Option Kind
  | .literal _ => none
  | .placeholder kind => some kind

/-- The text of a literal. -/
def text? : Token → Option (List Char)
  | .literal text => some text
  | .placeholder _ => none

end Token

-- ======================================================== specifiers

/-- The character that opens a specifier. -/
def marker : Char := '%'

/-- The characters that may follow a marker, in order, and the tokens
for which the two stand. -/
def specifiers : List (Char × Token) :=
  [('%', .literal [marker]),
   ('E', .placeholder .decimal), ('F', .placeholder .decimal), ('G', .placeholder .decimal),
   ('X', .placeholder .hex),
   ('b', .placeholder .bool),
   ('c', .placeholder .string),
   ('d', .placeholder .int),
   ('e', .placeholder .decimal), ('f', .placeholder .decimal), ('g', .placeholder .decimal),
   ('i', .placeholder .int),
   ('s', .placeholder .string),
   ('u', .placeholder .int),
   ('x', .placeholder .hex)]

end Unformat
