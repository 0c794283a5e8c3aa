/-
Data as a document holds them: scalars, lists, and dictionaries whose
keys are scalars. Of equal keys the first spelling stays, with the last
value. Messages name the type of a datum and show data in one line.
-/
import Unformat.Keyed
import Unformat.Scalar

namespace Unformat

/-- A datum. The keys of a dictionary are distinct. -/
inductive Datum where
  | scalar (s : Scalar)
  | list (items : List Datum)
  | dict (entries : List (Scalar × Datum))
deriving Inhabited

namespace Datum

/-- The text `[a, b, …]`. -/
def bracketed (items : List String) : String :=
  "[" ++ ", ".intercalate items ++ "]"

mutual

/-- A datum as messages show it. -/
def shown : Datum → String
  | .scalar s => s.shown
  | .list items => bracketed (shownItems items)
  | .dict entries => "\x7b" ++ ", ".intercalate (shownEntries entries) ++ "\x7d"

/-- The items of a list as messages show them. -/
def shownItems : List Datum → List String
  | [] => []
  | d :: ds => d.shown :: shownItems ds

/-- The entries of a dictionary as messages show them. -/
def shownEntries : List (Scalar × Datum) → List String
  | [] => []
  | (k, d) :: es => (k.shown ++ ": " ++ d.shown) :: shownEntries es

end

/-- The name of the type of a datum. -/
def typeName : Datum → String
  | .scalar s => s.typeName
  | .list _ => "list"
  | .dict _ => "dict"

/-- A dictionary with a value under a key. A key that is the same as a
known one stands for it. -/
def put (entries : Keyed Scalar Datum) (key : Scalar) (d : Datum) : Keyed Scalar Datum :=
  Keyed.put ((entries.keys.find? key.sameKey).getD key) d entries

/-- The dictionary of some entries, put one after the other. -/
def ofEntries (entries : List (Scalar × Datum)) : Datum :=
  .dict (entries.foldl (fun known e => put known e.1 e.2) [])

/-- The text of a datum that is one. -/
def str? : Datum → Option Text
  | .scalar (.str t) => some t
  | _ => none

end Datum

end Unformat
