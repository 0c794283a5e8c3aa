/-
Configurations of handlers, read from a document. A document is refused
for its first fault in a fixed order: it is no dictionary, the directive
is missing or no text, the shape is no list, an entry of it is no text,
the options are no dictionary, some of them are unknown, and then the
policy, the way to read base sixteen and the way to narrow in turn.
Neither the order of keys nor any other key matters.

Unknown options are listed in order. A document may have keys that are no
texts, and keys without a common order cannot be listed
(`ConfigurationFault.unlistedOptions`).
-/
import Unformat.Match.Settings
import Unformat.Pattern

namespace Unformat

/-- A directive, the names of its shape, and options. -/
structure Configuration where
  directive : Text
  shape : List Text := []
  options : Settings := {}
deriving DecidableEq

-- ============================================================= faults

/-- The keys of options. -/
inductive OptionKey where
  | policy
  | hexMode
  | narrowing
deriving DecidableEq

namespace OptionKey

/-- The name of an option. -/
def name : OptionKey → String
  | .policy => "policy"
  | .hexMode => "hex_mode"
  | .narrowing => "narrowing"

/-- All options, in the order in which they are checked. -/
def all : List OptionKey := [.policy, .hexMode, .narrowing]

/-- The names of an option's choices, in order. -/
def choices : OptionKey → List String
  | .policy => ["lenient", "strict"]
  | .hexMode => ["base16", "legacy"]
  | .narrowing => ["checked", "wrap"]

/-- The key of an option in a dictionary. -/
def key (k : OptionKey) : Scalar :=
  .word k.name

end OptionKey

/-- Why a text is no document: it is malformed, or it holds a day or a
moment that there is not. -/
inductive DocumentFault where
  | malformed
  | noSuchDay
deriving DecidableEq

/-- The text of a refusal. -/
def DocumentFault.message : DocumentFault → String
  | .malformed => "<config>: invalid YAML"
  | .noSuchDay => "a day or a moment is out of range"

/-- Why a document is no configuration. -/
inductive ConfigurationFault where
  | document (fault : DocumentFault)
  | notDict (typeName : String)
  | noDirective
  | directiveType (typeName : String)
  | shapeType (typeName : String)
  | entryType (typeName : String)
  | optionsType (typeName : String)
  | unknownOptions (keys : List Scalar)
  | unlistedOptions
  | optionType (key : OptionKey) (typeName : String)
  | optionChoice (key : OptionKey) (given : Text)
deriving DecidableEq

/-- The text of a refusal. -/
def ConfigurationFault.message : ConfigurationFault → String
  | .document fault => fault.message
  | .notDict typeName => s!"expected dict, got {typeName}"
  | .noDirective => "missing required field 'directive'"
  | .directiveType typeName => s!"'directive' must be a string, got {typeName}"
  | .shapeType typeName => s!"'shape' must be a list, got {typeName}"
  | .entryType typeName => s!"shape entries must be strings, got {typeName}"
  | .optionsType typeName => s!"options must be a dict, got {typeName}"
  | .unknownOptions keys =>
      let list := Datum.bracketed (keys.map Scalar.shown)
      s!"unknown option(s): {list}"
  | .unlistedOptions => "unknown option(s) without a common order"
  | .optionType key typeName => s!"'{key.name}' must be a string, got {typeName}"
  | .optionChoice key given =>
      let list := Datum.bracketed (key.choices.map fun c => quote c.toList)
      s!"'{key.name}' must be one of {list}, got {given.quoted}"

/-- Whether a fault is one of those that say what is wrong with a
configuration. The others are no such faults: a day that there is not, and
keys that cannot be listed. -/
def ConfigurationFault.isRefusal : ConfigurationFault → Bool
  | .document .noSuchDay => false
  | .unlistedOptions => false
  | _ => true

-- ============================================================ options

/-- The choice with a name, in any letter case. -/
def chosen? {α : Type} (all : List α) (name : α → String) (given : Text) : Option α :=
  given.chars?.bind fun cs => all.find? fun a => (name a).toList == lowerAll cs

/-- The choice that a dictionary makes for an option, or the default if
it makes none. -/
def readChoice {α : Type} (entries : Keyed Scalar Datum) (key : OptionKey) (all : List α)
    (name : α → String) (default : α) : Except ConfigurationFault α :=
  match Keyed.find? key.key entries with
  | none => .ok default
  | some d =>
      match d.str? with
      | none => .error (.optionType key d.typeName)
      | some given =>
          match chosen? all name given with
          | none => .error (.optionChoice key given)
          | some a => .ok a

/-- The keys of a dictionary that are no options. -/
def unknownKeys (entries : Keyed Scalar Datum) : List Scalar :=
  entries.keys.filter fun k => k ∉ OptionKey.all.map OptionKey.key

/-- Reads options; a null stands for the defaults. -/
def Settings.ofDatum : Datum → Except ConfigurationFault Settings
  | .scalar .null => .ok {}
  | .dict entries =>
      match Scalar.inOrder? (unknownKeys entries) with
      | none => .error .unlistedOptions
      | some (k :: ks) => .error (.unknownOptions (k :: ks))
      | some [] => do
          let policy ← readChoice entries .policy Policy.all Policy.name .strict
          let hexMode ← readChoice entries .hexMode HexReading.all HexReading.name .legacy
          let narrowing ← readChoice entries .narrowing Narrowing.all Narrowing.name .wrap
          return { policy, hexMode, narrowing }
  | d => .error (.optionsType d.typeName)

-- ======================================================== whole config

/-- The texts of a shape, or a refusal of the first entry that is
none. -/
def readNames : List Datum → Except ConfigurationFault (List Text)
  | [] => .ok []
  | d :: ds =>
      match d.str? with
      | none => .error (.entryType d.typeName)
      | some t => (readNames ds).map (t :: ·)

namespace Configuration

/-- The directive of a configuration. -/
def readDirective (entries : Keyed Scalar Datum) : Except ConfigurationFault Text :=
  match Keyed.find? (.word "directive") entries with
  | none => .error .noDirective
  | some (.scalar .null) => .error .noDirective
  | some d =>
      match d.str? with
      | none => .error (.directiveType d.typeName)
      | some t => .ok t

/-- The names of a shape; none if there is no shape. -/
def readShape (entries : Keyed Scalar Datum) : Except ConfigurationFault (List Text) :=
  match Keyed.find? (.word "shape") entries with
  | none => .ok []
  | some (.list items) => readNames items
  | some d => .error (.shapeType d.typeName)

/-- Reads a configuration. -/
def ofDatum : Datum → Except ConfigurationFault Configuration
  | .dict entries => do
      let directive ← readDirective entries
      let shape ← readShape entries
      let written := Keyed.find? (.word "options") entries
      let options ← Settings.ofDatum (written.getD (.scalar .null))
      return { directive, shape, options }
  | d => .error (.notDict d.typeName)

/-- The pattern of a configuration, if it is valid. -/
def pattern (c : Configuration) : Except PatternFault Pattern := do
  let p ← Pattern.ofDirective c.directive (c.shape.map .text)
  p.check.mapError .shape
  return p

end Configuration

end Unformat
