/-
The parts of a document, and the data for which they stand. A plain
scalar stands for what its text is read as, a quoted one for its text.
Only scalars are keys, and of equal keys the last value counts. The
entries behind a merging key count as if they stood before all others in
its mapping; behind it stands a mapping, or a sequence of mappings of
which an earlier one counts more than a later one.
-/
import Unformat.Datum
import Unformat.Yaml.Typing

namespace Unformat.Yaml

/-- A part of a document. -/
inductive Node where
  | plain (cs : List Char)
  | quoted (t : Text)
  | sequence (items : List Node)
  | mapping (entries : List (Node × Node))
deriving Inhabited

namespace Node

/-- What stands where nothing is written. -/
def missing : Node :=
  .plain []

/-- Whether a key merges entries. -/
def isMerging : Node → Bool
  | .plain cs => cs = mergingWord
  | _ => false

/-- The scalar for which a key stands; the word for a default value
stands for itself there. -/
def key : Node → Except DocumentFault Scalar
  | .plain cs => if cs = defaultWord then .ok (.str (.ofChars cs)) else plainScalar cs
  | .quoted t => .ok (.str t)
  | _ => .error .malformed

mutual

/-- The datum for which a node stands. -/
def datum : Node → Except DocumentFault Datum
  | .plain cs => (plainScalar cs).map .scalar
  | .quoted t => .ok (.scalar (.str t))
  | .sequence items => (data items).map .list
  | .mapping entries =>
      (entriesOf entries).map fun (merged, own) => Datum.ofEntries (merged ++ own)

/-- The data for which nodes stand. -/
def data : List Node → Except DocumentFault (List Datum)
  | [] => .ok []
  | x :: xs => do
      let d ← x.datum
      let ds ← data xs
      return d :: ds

/-- The entries that a mapping merges, and its own. -/
def entriesOf : List (Node × Node) →
    Except DocumentFault (List (Scalar × Datum) × List (Scalar × Datum))
  | [] => .ok ([], [])
  | (k, v) :: rest => do
      let (merged, own) ← entriesOf rest
      if k.isMerging then return ((← mergedBy v) ++ merged, own)
      else return (merged, (← k.key, ← v.datum) :: own)

/-- The entries that are merged by the node behind a merging key. -/
def mergedBy : Node → Except DocumentFault (List (Scalar × Datum))
  | .mapping entries => (entriesOf entries).map fun (merged, own) => merged ++ own
  | .sequence items => mergedByAll items
  | _ => .error .malformed

/-- The entries that are merged by a sequence of mappings, those of the
last one first. -/
def mergedByAll : List Node → Except DocumentFault (List (Scalar × Datum))
  | [] => .ok []
  | .mapping entries :: rest => do
      let (merged, own) ← entriesOf entries
      return (← mergedByAll rest) ++ (merged ++ own)
  | _ => .error .malformed

end

end Node

end Unformat.Yaml
