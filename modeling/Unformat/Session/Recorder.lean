/-
Recorders, which keep the calls that they receive, and recorders under
names.
-/
import Unformat.Keyed
import Unformat.Value

namespace Unformat

/-- A recorder with the calls that it received, in order. -/
structure Recorder where
  calls : List (List Value) := []
deriving DecidableEq

namespace Recorder

/-- One more call. -/
def record (r : Recorder) (values : List Value) : Recorder :=
  ⟨r.calls ++ [values]⟩

/-- How many calls there were. -/
def count (r : Recorder) : Nat :=
  r.calls.length

/-- The last call. -/
def last? (r : Recorder) : Option (List Value) :=
  r.calls.getLast?

end Recorder

/-- Recorders under their names. -/
abbrev Recorders := Keyed String Recorder

namespace Recorders

/-- The recorder under a name; an empty one if there is none. -/
def get (name : String) (rs : Recorders) : Recorder :=
  (Keyed.find? name rs).getD {}

/-- The recorders with one under this name. -/
def ensure (name : String) (rs : Recorders) : Recorders :=
  Keyed.put name (get name rs) rs

end Recorders

end Unformat
