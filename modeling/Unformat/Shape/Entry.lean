/-
Shapes, and the entries by which they are given: names in any spelling,
classes of values, types themselves, or anything else, which is refused.
A shape is resolved entry by entry, and the first entry without a type
is the one that a refusal names.
-/
import Unformat.Datum
import Unformat.Shape.Element
import Unformat.Text.Blank

namespace Unformat

-- ============================================================ entries

/-- The classes of values that may be given in place of a name, whether
shapes have a type for them or not. -/
inductive ValueClass where
  | str
  | bool
  | int
  | float
  | decimal
  | list
  | dict
  | bytes
  | object
  | none
  | other (fullName : String)
deriving DecidableEq

namespace ValueClass

/-- The full name of a class. -/
def name : ValueClass → String
  | .str => "str"
  | .bool => "bool"
  | .int => "int"
  | .float => "float"
  | .decimal => "decimal.Decimal"
  | .list => "list"
  | .dict => "dict"
  | .bytes => "bytes"
  | .object => "object"
  | .none => "NoneType"
  | .other fullName => fullName

/-- The type of the values of a class, if shapes have one. -/
def elementType? : ValueClass → Option ElementType
  | .str => some .str
  | .bool => some .bool
  | .int => some .int64
  | .float => some .float
  | .decimal => some .decimal
  | _ => Option.none

end ValueClass

/-- An entry of a shape: a type itself, a class of values, a text, which
may be a name, or any other datum. -/
inductive ShapeEntry where
  | type (t : ElementType)
  | valueClass (c : ValueClass)
  | text (t : Text)
  | other (d : Datum)

namespace ShapeEntry

/-- A name made of characters. -/
def name (cs : List Char) : ShapeEntry :=
  .text (.ofChars cs)

/-- An entry as messages show it. -/
def shown : ShapeEntry → String
  | .type t => t.name
  | .valueClass c => s!"<class '{c.name}'>"
  | .text t => t.quoted
  | .other d => d.shown

end ShapeEntry

namespace ElementType

/-- Names that stand for a type beside its own. -/
def aliases : List (String × ElementType) :=
  [("string", .str), ("int", .int64), ("long", .int64), ("uint", .uint32)]

/-- The type that a word stands for, or whose name it is. -/
def ofWord? (word : List Char) : Option ElementType :=
  let key := String.ofList word
  match aliases.lookup key with
  | some t => some t
  | none => all.find? fun t => t.name == key

/-- The type of a name. Blanks around the name and letter case do not
matter; a text in which a half of a surrogate pair stands alone is no
name. -/
def ofName? (t : Text) : Option ElementType :=
  t.strip.chars?.bind fun cs => ofWord? (lowerAll cs)

/-- The type of an entry. -/
def ofEntry? : ShapeEntry → Option ElementType
  | .type t => some t
  | .valueClass c => c.elementType?
  | .text t => ofName? t
  | .other _ => none

end ElementType

-- ========================================================= resolution

/-- Why a shape is refused. -/
inductive ShapeFault where
  | unknown (entry : ShapeEntry)
  | count (directive : Text) (placeholders elements : Nat)
  | misfit (index : Nat) (directive : Text) (kind : Kind) (target : ElementType)

/-- The text of a refusal. -/
def ShapeFault.message : ShapeFault → String
  | .unknown entry =>
      let names := ", ".intercalate (ElementType.all.map ElementType.name)
      s!"unknown shape type: {entry.shown} (expected one of: {names})"
  | .count directive placeholders elements =>
      s!"directive {directive.quoted} has {placeholders} placeholder(s) " ++
        s!"but the shape declares {elements} element(s)"
  | .misfit index directive kind target =>
      s!"placeholder {index} of {directive.quoted} decodes {kind.name} " ++
        s!"which cannot produce shape type {target.name}"

/-- The types that the values of a match shall have, in order. -/
abbrev Shape := List ElementType

/-- The types of all entries, or a refusal of the first entry that has
none. -/
def Shape.ofEntries : List ShapeEntry → Except ShapeFault Shape
  | [] => .ok []
  | e :: es =>
      match ElementType.ofEntry? e with
      | none => .error (.unknown e)
      | some t => (Shape.ofEntries es).map (t :: ·)

end Unformat
