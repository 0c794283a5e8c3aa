/-
Documents. A text holds at most one; lines that open and end it are
optional, and a text without any holds null.

This is a reader for a part of YAML, in which configurations are usually
written: comments, mappings and sequences by indentation and in brackets,
plain scalars and scalars in quotation marks, and merging keys. What it
leaves out it refuses as malformed, although it is YAML:

- literal and folded scalars, behind a bar or an angle bracket;
- anchors and aliases;
- tags;
- lines that begin with a percent sign, in front of a document.

Nothing that is said of configurations rests on this reader, for it is
only one of those that `Configuration.ofFile` takes.
-/
import Unformat.Configuration.File
import Unformat.Yaml.Indented

namespace Unformat.Yaml

/-- Whether nothing follows a document but lines that end it. -/
def endsDocument : (fuel : Nat) → Source → Bool
  | 0, _ => false
  | fuel + 1, s =>
      let s := next s
      s.isEmpty ||
        (atLineOf '.' s && atLineEnd (skipSpaces (s.drop 3)) && endsDocument fuel (s.drop 3))

/-- The document at the start of a source. Behind a line that opens it a
value may stand, but no key; a line that ends it needs one that opens
it. -/
def readStart? (fuel : Nat) (s : Source) : Option (Node × Source) :=
  let s := next s
  if atLineOf '-' s then
    let here := skipSpaces (s.drop 3)
    if atLineEnd here then
      let later := next here
      if atDocumentEnd later then some (.missing, later) else readBlock? fuel (-1) later
    else readLine? fuel (-1) here
  else if atLineOf '.' s then none
  else if s.isEmpty then some (.missing, s)
  else readBlock? fuel (-1) s

/-- The only part of a text that is not nested in another. Its readers
spend no more than a few units of fuel for each character, so that the
fuel is never used up. -/
def readNode? (cs : List Char) : Option Node := do
  let s ← source? cs
  let fuel := 6 * s.length + 8
  let (d, left) ← readStart? fuel s
  if endsDocument fuel left then some d else none

/-- Reads the only document of a text. -/
def readDocument : DocumentReader := fun cs =>
  match readNode? cs with
  | none => .error .malformed
  | some d => d.datum

end Unformat.Yaml
