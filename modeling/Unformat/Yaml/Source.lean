/-
The characters of a document with their lines and columns. Columns tell
how parts of a document nest, and a key has to end on the line on which
it begins, so every character carries both.
-/

namespace Unformat.Yaml

/-- A character of a document, with the number of its line, its column
and its place among all characters. -/
structure Spot where
  char : Char
  line : Nat
  column : Nat
  index : Nat

/-- What is still to be read of a document. -/
abbrev Source := List Spot

-- ======================================================= line breaks

/-- The line break for which a character stands; the next-line character
stands for a line feed. -/
def lineBreak? (c : Char) : Option Char :=
  if c = '\n' ∨ c = '\u0085' then some '\n'
  else if c = '\u2028' ∨ c = '\u2029' then some c
  else none

/-- Whether a character breaks a line. -/
def isBreak (c : Char) : Bool :=
  (lineBreak? c).isSome

/-- A text with line feeds in place of returns and of returns before
line feeds. -/
def unifyReturns : List Char → List Char
  | '\r' :: '\n' :: cs => '\n' :: unifyReturns cs
  | '\r' :: cs => '\n' :: unifyReturns cs
  | c :: cs => c :: unifyReturns cs
  | [] => []

/-- Whether a character may stand in a document at all. -/
def isAllowed (c : Char) : Bool :=
  let n := c.toNat
  c = '\t' || c = '\n' || c = '\u0085' || (0x20 ≤ n && n ≤ 0x7E) || (0xA0 ≤ n && n ≤ 0xFFFD)
    || 0x10000 ≤ n

/-- The characters of a document from a place on; a mark of the byte
order takes no column. -/
def locate : (line column index : Nat) → List Char → Source
  | _, _, _, [] => []
  | line, column, index, c :: cs =>
      ⟨c, line, column, index⟩ ::
        if isBreak c then locate (line + 1) 0 (index + 1) cs
        else locate line (if c = '\uFEFF' then column else column + 1) (index + 1) cs

/-- The source of a document, unless a character may not stand in it. A
mark of the byte order at its very start is skipped. -/
def source? (cs : List Char) : Option Source :=
  let cs := unifyReturns cs
  if cs.all isAllowed then
    some <| match cs with
      | '\uFEFF' :: cs => locate 0 0 1 cs
      | cs => locate 0 0 0 cs
  else none

-- ============================================================ looking

/-- Whether a source is at its end or before a blank. -/
def atBlank : Source → Bool
  | [] => true
  | s :: _ => s.char = ' ' || s.char = '\t' || isBreak s.char

/-- Whether a line starts here that separates documents with this
character thrice. -/
def atLineOf (c : Char) : Source → Bool
  | s :: t :: u :: rest =>
      s.column = 0 && s.char = c && t.char = c && u.char = c && atBlank rest
  | _ => false

/-- Whether a line starts here that separates documents. -/
def atSeparator (s : Source) : Bool :=
  atLineOf '-' s || atLineOf '.' s

/-- Whether the next character is this one, with a blank behind it. -/
def atMark (c : Char) : Source → Bool
  | s :: rest => s.char = c && atBlank rest
  | [] => false

/-- Whether nothing is left on the line but a comment. -/
def atLineEnd : Source → Bool
  | [] => true
  | s :: _ => s.char = '#' || isBreak s.char

-- =========================================================== skipping

/-- Skips spaces. -/
def skipSpaces (s : Source) : Source :=
  s.dropWhile fun x => x.char = ' '

/-- Skips spaces, line breaks and comments; `comment` says whether a
comment is being skipped. -/
def skipFiller : (comment : Bool) → Source → Source
  | _, [] => []
  | true, s :: rest => skipFiller (!isBreak s.char) rest
  | false, s :: rest =>
      if s.char = ' ' || isBreak s.char then skipFiller false rest
      else if s.char = '#' then skipFiller true rest
      else s :: rest

/-- What is left at the next thing to read; nothing at the end of a
document. -/
def next (s : Source) : Source :=
  skipFiller false s

/-- Whether nothing is left of a document. -/
def atDocumentEnd (s : Source) : Bool :=
  s.isEmpty || atSeparator s

end Unformat.Yaml
