/-
Sequences and mappings by indentation. What belongs to an item, a key or
a value by indentation stands deeper than its mark or key. Behind a mark
it may begin on the same line; behind the colon of a key without a mark
only a scalar or something in brackets may. A sequence may stand as far
left as the key or the colon whose value it is.

Every reader takes fuel, of which each call spends one; no more than a
few calls are nested for each character.
-/
import Unformat.Yaml.Bracketed

namespace Unformat.Yaml

/-- The source behind the next character. -/
def behind (s : Source) : Source :=
  s.drop 1

/-- Whether the next thing to read stands at this column. -/
def atColumn (column : Nat) : Source → Bool
  | [] => false
  | s :: _ => s.column = column

/-- Something in one piece that ends its line. -/
def readLine? (fuel : Nat) (indent : Int) (s : Source) : Option (Node × Source) := do
  let (d, left) ← readInline? fuel false indent s
  if atLineEnd (skipSpaces left) then some (d, left) else none

mutual

/-- Something that stands deeper than this indentation, where a new line
begins or behind a mark. -/
def readBlock? : (fuel : Nat) → (indent : Int) → Source → Option (Node × Source)
  | 0, _, _ => none
  | fuel + 1, indent, s =>
      match s with
      | [] => none
      | x :: _ =>
          if atMark '-' s then readSequence? fuel x.column false [] s
          else if atMark '?' s then readMapping? fuel x.column [] s
          else do
            let (d, left) ← readInline? fuel false indent s
            let colon := skipSpaces left
            if atMark ':' colon then readMapping? fuel x.column [] s
            else if atLineEnd colon then some (d, left)
            else none

/-- A mapping with this indentation, at an entry and after the entries
already read. -/
def readMapping? : (fuel : Nat) → (indent : Nat) → (entries : List (Node × Node)) →
    Source → Option (Node × Source)
  | 0, _, _, _ => none
  | fuel + 1, indent, entries, s => do
      let (entry, left) ← readEntry? fuel indent s
      let entries := entries ++ [entry]
      let left := next left
      if atDocumentEnd left then some (.mapping entries, left)
      else
        match left with
        | [] => none
        | y :: _ =>
            if y.column < indent then some (.mapping entries, left)
            else if y.column = indent then readMapping? fuel indent entries left
            else none

/-- An entry of a mapping with this indentation. Its key may have a mark
of its own, and then the colon stands below that. -/
def readEntry? : (fuel : Nat) → (indent : Nat) → Source → Option ((Node × Node) × Source)
  | 0, _, _ => none
  | fuel + 1, indent, s => do
      if atMark '?' s then do
        let (k, left) ← readMarked? fuel indent true (behind s)
        let colon := next left
        if atColumn indent colon && atMark ':' colon then do
          let (v, left) ← readMarked? fuel indent true (behind colon)
          return ((k, v), left)
        else return ((k, .missing), left)
      else do
        let (k, left) ← readInline? fuel false indent s
        let colon := skipSpaces left
        if atMark ':' colon && isKey s colon then do
          let (v, left) ← readEntryValue? fuel indent (behind colon)
          return ((k, v), left)
        else none

/-- The value behind the colon of a key without a mark, which may be
missing. -/
def readEntryValue? : (fuel : Nat) → (indent : Nat) → Source → Option (Node × Source)
  | 0, _, _ => none
  | fuel + 1, indent, s =>
      let here := skipSpaces s
      if atLineEnd here then readMarked? fuel indent true here else readLine? fuel indent here

/-- What is behind a mark at this column, which may be missing. `level`
says whether a sequence may stand as far left as the mark. -/
def readMarked? : (fuel : Nat) → (indent : Nat) → (level : Bool) → Source →
    Option (Node × Source)
  | 0, _, _, _ => none
  | fuel + 1, indent, level, s =>
      let here := skipSpaces s
      if atLineEnd here then
        let later := next here
        if atDocumentEnd later then some (.missing, later)
        else
          match later with
          | [] => none
          | y :: _ =>
              if indent < y.column then readBlock? fuel indent later
              else if level && y.column = indent && atMark '-' later then
                readSequence? fuel indent true [] later
              else some (.missing, later)
      else readBlock? fuel indent here

/-- A sequence with this indentation, at the mark of an item and after
the items already read. One that is as far left as its key ends where
the mapping goes on. -/
def readSequence? : (fuel : Nat) → (indent : Nat) → (level : Bool) → (items : List Node) →
    Source → Option (Node × Source)
  | 0, _, _, _, _ => none
  | fuel + 1, indent, level, items, s => do
      let (d, left) ← readMarked? fuel indent false (behind s)
      let items := items ++ [d]
      let left := next left
      if atDocumentEnd left then some (.sequence items, left)
      else
        match left with
        | [] => none
        | y :: _ =>
            if y.column = indent ∧ atMark '-' left then readSequence? fuel indent level items left
            else if y.column < indent ∨ (y.column = indent ∧ level) then
              some (.sequence items, left)
            else none

end

end Unformat.Yaml
