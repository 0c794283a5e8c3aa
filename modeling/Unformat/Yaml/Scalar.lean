/-
Scalars of a document: plain ones and ones in quotation marks, over one
line or more. Line breaks inside a scalar are folded: a single one
becomes a space, and of more than one the first is dropped. A plain
scalar ends before a colon or comment mark that is set off by a blank,
and where the next line is not indented; in brackets also before
punctuation.
-/
import Unformat.Number.Integer
import Unformat.Text.CodePoint
import Unformat.Yaml.Source

namespace Unformat.Yaml

/-- Blanks between two parts of a scalar, folded if a line breaks there;
a line that ends in a backslash is joined to the next without a
space. -/
def foldBlanks (joined : Bool) (blanks : List Char) : List Char :=
  match joined, blanks.filterMap lineBreak? with
  | true, breaks => breaks
  | false, [] => blanks
  | false, first :: more =>
      if first ≠ '\n' then first :: more
      else if more = [] then [' ']
      else more

-- ============================================================== plain

/-- The punctuation of brackets. -/
def punctuation : List Char :=
  [',', '[', ']', '{', '}']

/-- The characters with a meaning of their own, with which no plain
scalar begins. -/
def indicators : List Char :=
  punctuation ++ ['#', '&', '*', '!', '|', '>', '\'', '"', '%', '@', '`']

/-- Whether a plain scalar may begin with the next character. A dash may
if no blank follows, and so may a question mark or a colon outside
brackets. -/
def startsPlain (inBrackets : Bool) : Source → Bool
  | [] => false
  | s :: rest =>
      if s.char = '-' then !atBlank rest
      else if s.char = '?' ∨ s.char = ':' then !inBrackets && !atBlank rest
      else !indicators.contains s.char && !atBlank (s :: rest)

/-- Whether a plain scalar ends before the next character. -/
def endsPlain (inBrackets : Bool) (indent : Int) (blanks : List Char) : Source → Bool
  | [] => true
  | s :: rest =>
      let broken := blanks.any isBreak
      s.char = '\t'
        || (s.char = ':' &&
            (atBlank rest || (inBrackets && rest.head?.any fun t => punctuation.contains t.char)))
        || (inBrackets && (s.char = '?' || punctuation.contains s.char))
        || (s.char = '#' && !blanks.isEmpty)
        || (broken && atSeparator (s :: rest))
        || (broken && !inBrackets && (s.column : Int) ≤ indent)

/-- The rest of a plain scalar inside something with this indentation,
with blanks passed since its last character, and what is left behind
it. -/
def plain (inBrackets : Bool) (indent : Int) : (blanks : List Char) → Source →
    List Char × Source
  | _, [] => ([], [])
  | blanks, s :: rest =>
      if s.char = ' ' || isBreak s.char then
        match plain inBrackets indent (blanks ++ [s.char]) rest with
        | ([], _) => ([], s :: rest)
        | more => more
      else if endsPlain inBrackets indent blanks (s :: rest) then ([], s :: rest)
      else
        let (more, left) := plain inBrackets indent [] rest
        (foldBlanks false blanks ++ s.char :: more, left)

-- ============================================================= quoted

/-- The character for which a letter behind a backslash stands. -/
def escaped? (c : Char) : Option Char :=
  [('0', '\x00'), ('a', '\x07'), ('b', '\x08'), ('t', '\t'), ('\t', '\t'), ('n', '\n'),
   ('v', '\x0B'), ('f', '\x0C'), ('r', '\r'), ('e', '\x1B'), (' ', ' '), ('"', '"'), ('\\', '\\'),
   ('/', '/'), ('N', '\u0085'), ('_', '\u00A0'), ('L', '\u2028'), ('P', '\u2029')].lookup c

/-- How many hexadecimal digits follow a letter behind a backslash. -/
def escapeWidth? (c : Char) : Option Nat :=
  [('x', 2), ('u', 4), ('U', 8)].lookup c

/-- Where the reading of a quoted scalar stands: at its text, with the
blanks passed since its last character, behind a backslash, or before
some more digits of a number. -/
inductive QuoteState where
  | text (joined : Bool) (blanks : List Char)
  | escape
  | number (digits value : Nat)

/-- The rest of a scalar in double quotes, and what is left behind it. A
number may be that of a half of a surrogate pair, which then stands
alone. -/
def doubleQuoted : QuoteState → Source → Option (Text × Source)
  | _, [] => none
  | .text joined blanks, s :: rest =>
      let c := s.char
      if (joined || blanks.any isBreak) && atSeparator (s :: rest) then none
      else if c = ' ' ∨ c = '\t' ∨ isBreak c then
        doubleQuoted (.text joined (blanks ++ [c])) rest
      else
        let before := Text.ofChars (foldBlanks joined blanks)
        if c = '"' then some (before, rest)
        else if c = '\\' then
          (doubleQuoted .escape rest).map fun (more, left) => (before ++ more, left)
        else
          (doubleQuoted (.text false []) rest).map fun (more, left) =>
            (before ++ .char c :: more, left)
  | .escape, s :: rest =>
      let c := s.char
      if isBreak c then doubleQuoted (.text true []) rest
      else
        match escaped? c, escapeWidth? c with
        | some d, _ =>
            (doubleQuoted (.text false []) rest).map fun (more, left) => (.char d :: more, left)
        | none, some width => doubleQuoted (.number width 0) rest
        | none, none => none
  | .number digits value, s :: rest =>
      match hexDigit? s.char with
      | none => none
      | some d =>
          let value := 16 * value + d
          if 1 < digits then doubleQuoted (.number (digits - 1) value) rest
          else
            match CodePoint.ofNat? value with
            | none => none
            | some p =>
                (doubleQuoted (.text false []) rest).map fun (more, left) => (p :: more, left)

/-- The rest of a scalar in single quotes, with blanks passed since its
last character, and what is left behind it. A doubled quote stands for
one. -/
def singleQuoted : (blanks : List Char) → Source → Option (List Char × Source)
  | _, [] => none
  | blanks, s :: rest =>
      let c := s.char
      if blanks.any isBreak && atSeparator (s :: rest) then none
      else if c = ' ' ∨ c = '\t' ∨ isBreak c then singleQuoted (blanks ++ [c]) rest
      else
        let before := foldBlanks false blanks
        if c = '\'' then
          match rest with
          | t :: rest =>
              if t.char = '\'' then
                (singleQuoted [] rest).map fun (more, left) => (before ++ '\'' :: more, left)
              else some (before, t :: rest)
          | [] => some (before, [])
        else (singleQuoted [] rest).map fun (more, left) => (before ++ c :: more, left)

end Unformat.Yaml
