/-
Dictionaries in which a configuration is written, and that they read as
that configuration (`Configuration.ofDatum_of_writtenIn`).

The directive stands under its key, the names of the shape in a list
under theirs, and the options in a dictionary of their own, where each
choice stands under its key by its name in any letter case. What is the
default need not be written. The order of keys is free, and so are all
other keys but those among the options.

A name in any letter case is that name in lower case, so what writes a
choice makes it (`Settings.WrittenIn.chosenBy`), and what makes the choices
of a configuration is read as the configuration.
-/
import Unformat.Proofs.Configuration.Accepted

namespace Unformat

-- ============================================== statement vocabulary

/-- What stands under a key writes a choice: a text that is the name of
the choice up to letter case, or nothing if the choice is the default. -/
def WritesChoice (name default : String) : Option Datum → Prop
  | none => name = default
  | some d =>
      ∃ given, d = .scalar (.str (.ofChars given)) ∧ given.map Char.toLower = name.toList

/-- A dictionary in which options are written. -/
structure Settings.WrittenIn (options : Settings) (entries : Keyed Scalar Datum) : Prop where
  known : ∀ k ∈ entries.keys, k ∈ OptionKey.all.map OptionKey.key
  writes : ∀ key : OptionKey, WritesChoice (options.choice key) (({} : Settings).choice key)
    (Keyed.find? key.key entries)

/-- A datum in which options are written: a dictionary, or a null for the
defaults. -/
def Settings.WrittenAs (options : Settings) : Datum → Prop
  | .scalar .null => options = {}
  | .dict entries => options.WrittenIn entries
  | _ => False

/-- Options written out in full. -/
def Settings.toEntries (options : Settings) : Keyed Scalar Datum :=
  OptionKey.all.map fun key => (key.key, .scalar (.word (options.choice key)))

/-- A configuration written out in full. -/
def Configuration.toEntries (c : Configuration) : Keyed Scalar Datum :=
  [(.word "directive", .scalar (.str c.directive)),
   (.word "shape", .list (c.shape.map fun name => .scalar (.str name))),
   (.word "options", .dict c.options.toEntries)]

/-- A dictionary in which a configuration is written. -/
structure Configuration.WrittenIn (c : Configuration) (entries : Keyed Scalar Datum) : Prop where
  directive : Keyed.find? (.word "directive") entries = some (.scalar (.str c.directive))
  shape : Keyed.find? (.word "shape") entries =
      some (.list (c.shape.map fun name => .scalar (.str name))) ∨
    (Keyed.find? (.word "shape") entries = none ∧ c.shape = [])
  options : c.options.WrittenAs
    ((Keyed.find? (.word "options") entries).getD (.scalar .null))

-- ============================================================= options

theorem OptionKey.ascii_choices (key : OptionKey) {s : String} (hs : s ∈ key.choices) :
    ∀ c ∈ s.toList, c.toNat < 0x80 := by
  have hall : (key.choices.all fun s => s.toList.all fun c => decide (c.toNat < 0x80)) = true := by
    cases key <;> decide
  have hascii := List.all_eq_true.mp hall s hs
  exact fun c hc => of_decide_eq_true (List.all_eq_true.mp hascii c hc)

/-- The names of choices are in lower case. -/
theorem OptionKey.toLower_choices (key : OptionKey) :
    ∀ s ∈ key.choices, s.toList.map Char.toLower = s.toList := by
  cases key <;> decide

namespace Settings

variable {options : Settings} {entries : Keyed Scalar Datum}

/-- What writes choices makes them. -/
theorem WrittenIn.chosenBy (h : options.WrittenIn entries) : options.ChosenBy entries where
  known := h.known
  makes key := by
    have hwrites := h.writes key
    cases hfound : Keyed.find? key.key entries with
    | none =>
        rw [hfound] at hwrites
        exact hwrites
    | some d =>
        rw [hfound] at hwrites
        obtain ⟨given, rfl, hgiven⟩ := hwrites
        have hsmall : ∀ c ∈ (options.choice key).toList, c.toNat < 0x80 :=
          key.ascii_choices (options.choice_mem key)
        exact ⟨given, rfl, lowerAll_of_toLower hsmall hgiven⟩

/-- Options written out are written. -/
theorem writtenIn_toEntries (options : Settings) : options.WrittenIn options.toEntries where
  known k hk := by
    rw [Keyed.keys, toEntries, List.map_map] at hk
    exact hk
  writes key := by
    have hfind : Keyed.find? key.key options.toEntries =
        some (.scalar (.word (options.choice key))) := by
      cases key <;> rfl
    rw [hfind]
    exact ⟨_, rfl, key.toLower_choices _ (options.choice_mem key)⟩

theorem WrittenAs.givenAs {written : Option Datum}
    (h : options.WrittenAs (written.getD (.scalar .null))) : options.GivenAs written := by
  cases written with
  | none => exact h
  | some d =>
      unfold WrittenAs at h
      unfold GivenAs
      cases d with
      | list items => exact h
      | dict entries => exact h.chosenBy
      | scalar s => cases s <;> exact h

end Settings

-- ====================================================== configurations

namespace Configuration

variable {c : Configuration} {entries : Keyed Scalar Datum}

/-- There is a dictionary for every configuration. -/
theorem writtenIn_toEntries (c : Configuration) : c.WrittenIn c.toEntries where
  directive := rfl
  shape := .inl rfl
  options := c.options.writtenIn_toEntries

/-- A configuration reads as it is written. -/
theorem ofDatum_of_writtenIn (h : c.WrittenIn entries) : ofDatum (.dict entries) = .ok c := by
  have hgiven : c.GivenBy entries := ⟨h.directive, h.shape, h.options.givenAs⟩
  exact ofDatum_eq_ok_iff.mpr ⟨entries, rfl, hgiven⟩

end Configuration

end Unformat
