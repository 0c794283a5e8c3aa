/-
Scalars, and sequences and mappings in brackets. A part of brackets is
something alone, or a key with a value: a key ends on the line on which
it begins, not too far from its start, with a colon behind it, or stands
behind a question mark, where any of this is free. Brackets may go on
over any lines, up to one that separates documents.

Every reader takes fuel, of which each call spends one; no more than a
few calls are nested for each character.
-/
import Unformat.Yaml.Node
import Unformat.Yaml.Scalar

namespace Unformat.Yaml

/-- How long a key may be, from its start to the colon behind it. -/
def longestKey : Nat := 1024

/-- Whether the colon behind a node that starts at `start` makes it a
key. -/
def isKey (start : Source) (colon : Source) : Bool :=
  match start, colon with
  | s :: _, c :: _ => s.line = c.line && c.index - s.index ≤ longestKey
  | _, _ => false

/-- The characters behind which no value stands in brackets. -/
def partEnds : List Char :=
  [',', ']', '}']

/-- A part of a sequence in brackets as an item; a key with a value is a
mapping of one entry. -/
def itemOf : Node × Option Node → Node
  | (d, none) => d
  | (k, some v) => .mapping [(k, v)]

/-- A part of a mapping in brackets as an entry. -/
def entryOf : Node × Option Node → Node × Node
  | (k, v) => (k, v.getD .missing)

mutual

/-- A scalar or something in brackets, inside something with this
indentation. -/
def readInline? : (fuel : Nat) → (inBrackets : Bool) → (indent : Int) → Source →
    Option (Node × Source)
  | 0, _, _, _ => none
  | fuel + 1, inBrackets, indent, s =>
      match s with
      | [] => none
      | x :: rest =>
          if x.char = '[' then readItems? fuel [] (next rest)
          else if x.char = '{' then readEntries? fuel [] (next rest)
          else if x.char = '"' then
            (doubleQuoted (.text false []) rest).map fun (t, left) => (.quoted t, left)
          else if x.char = '\'' then
            (singleQuoted [] rest).map fun (cs, left) => (.quoted (.ofChars cs), left)
          else if startsPlain inBrackets s then
            let (cs, left) := plain inBrackets indent [] s
            some (.plain cs, left)
          else none

/-- The items of a sequence in brackets, after those already read. -/
def readItems? : (fuel : Nat) → (items : List Node) → Source → Option (Node × Source)
  | 0, _, _ => none
  | fuel + 1, items, s =>
      match s with
      | [] => none
      | x :: rest =>
          if x.char = ']' then some (.sequence items, rest)
          else do
            let (part, left) ← readPart? fuel s
            let items := items ++ [itemOf part]
            match next left with
            | [] => none
            | y :: more =>
                if y.char = ',' then readItems? fuel items (next more)
                else if y.char = ']' then some (.sequence items, more)
                else none

/-- The entries of a mapping in brackets, after those already read. -/
def readEntries? : (fuel : Nat) → (entries : List (Node × Node)) → Source →
    Option (Node × Source)
  | 0, _, _ => none
  | fuel + 1, entries, s =>
      match s with
      | [] => none
      | x :: rest =>
          if x.char = '}' then some (.mapping entries, rest)
          else do
            let (part, left) ← readPart? fuel s
            let entries := entries ++ [entryOf part]
            match next left with
            | [] => none
            | y :: more =>
                if y.char = ',' then readEntries? fuel entries (next more)
                else if y.char = '}' then some (.mapping entries, more)
                else none

/-- A part of brackets, with its value if it is a key. -/
def readPart? : (fuel : Nat) → Source → Option ((Node × Option Node) × Source)
  | 0, _ => none
  | fuel + 1, s =>
      match s with
      | [] => none
      | x :: rest =>
          if atSeparator s then none
          else if x.char = '?' then do
            let (k, left) ← readUnless? fuel (':' :: partEnds) (next rest)
            match next left with
            | [] => none
            | y :: more =>
                if y.char = ':' then do
                  let (v, left) ← readUnless? fuel partEnds (next more)
                  return ((k, some v), left)
                else return ((k, some .missing), left)
          else do
            let (d, left) ← readInline? fuel true 0 s
            match next left with
            | [] => none
            | y :: more =>
                if y.char ≠ ':' then return ((d, none), left)
                else if isKey s (y :: more) then do
                  let (v, left) ← readUnless? fuel partEnds (next more)
                  return ((d, some v), left)
                else none

/-- A key or a value in brackets, which is missing where one of these
characters stands. -/
def readUnless? : (fuel : Nat) → (ends : List Char) → Source → Option (Node × Source)
  | 0, _, _ => none
  | fuel + 1, ends, s =>
      match s with
      | [] => none
      | x :: _ =>
          if ends.contains x.char then some (.missing, s)
          else if atSeparator s then none
          else readInline? fuel true 0 s

end

end Unformat.Yaml
