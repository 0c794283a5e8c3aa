/-
Which documents are configurations, told by what stands under their keys
(`Configuration.ofDatum_eq_ok_iff`): a text as the directive, a list of
texts as the shape or none, and options that are a dictionary of choices,
a null or none. A choice is a text of characters that is the name of the
choice in lower case; where none is made, the default holds.

The three options differ in their choices alone (`OptionKey.Offers`), so
each step is taken once for all of them.
-/
import Unformat.Configuration.Basic
import Unformat.Proofs.Except

namespace Unformat

-- ============================================== statement vocabulary

/-- The name of the choice that is made for an option. -/
def Settings.choice (options : Settings) : OptionKey → String
  | .policy => options.policy.name
  | .hexMode => options.hexMode.name
  | .narrowing => options.narrowing.name

/-- What stands under a key makes a choice: a text that is the name of the
choice in lower case, or nothing if the choice is the default. -/
def MakesChoice (name default : String) : Option Datum → Prop
  | none => name = default
  | some d => ∃ given, d = .scalar (.str (.ofChars given)) ∧ lowerAll given = name.toList

/-- A dictionary that makes the choices of options, and has no other
keys. -/
structure Settings.ChosenBy (options : Settings) (entries : Keyed Scalar Datum) : Prop where
  known : ∀ k ∈ entries.keys, k ∈ OptionKey.all.map OptionKey.key
  makes : ∀ key : OptionKey, MakesChoice (options.choice key) (({} : Settings).choice key)
    (Keyed.find? key.key entries)

/-- What stands for options: a dictionary that makes their choices, or a
null or nothing for the defaults. -/
def Settings.GivenAs (options : Settings) : Option Datum → Prop
  | none => options = {}
  | some (.scalar .null) => options = {}
  | some (.dict entries) => options.ChosenBy entries
  | some _ => False

/-- A dictionary that holds the parts of a configuration. -/
structure Configuration.GivenBy (c : Configuration) (entries : Keyed Scalar Datum) : Prop where
  directive : Keyed.find? (.word "directive") entries = some (.scalar (.str c.directive))
  shape : Keyed.find? (.word "shape") entries =
      some (.list (c.shape.map fun name => .scalar (.str name))) ∨
    (Keyed.find? (.word "shape") entries = none ∧ c.shape = [])
  options : c.options.GivenAs (Keyed.find? (.word "options") entries)

-- ================================================================ data

namespace Datum

variable {d : Datum}

theorem str?_eq_some_iff {t : Text} : d.str? = some t ↔ d = .scalar (.str t) := by
  unfold str?
  split
  next t' => simp
  next hother => exact ⟨nofun, fun h => absurd h (hother t)⟩

theorem str?_eq_none_iff : d.str? = none ↔ ∀ t, d ≠ .scalar (.str t) := by
  simp only [Option.eq_none_iff_forall_ne_some, Ne, str?_eq_some_iff]

/-- A datum is a text or it is none. -/
theorem text_or_not (d : Datum) :
    (∃ t, d = .scalar (.str t)) ∨ ∀ t, d ≠ .scalar (.str t) := by
  cases hstr : d.str? with
  | some t => exact .inl ⟨t, str?_eq_some_iff.mp hstr⟩
  | none => exact .inr (str?_eq_none_iff.mp hstr)

end Datum

-- =============================================================== order

namespace Scalar

@[simp] theorem inOrder?_nil : inOrder? [] = some [] := by
  simp [inOrder?]

/-- Nothing is lost where scalars are put in order. -/
theorem perm_of_inOrder? {scalars ordered : List Scalar} (h : inOrder? scalars = some ordered) :
    ordered.Perm scalars := by
  unfold inOrder? at h
  split at h
  · obtain rfl := Option.some.inj h
    exact List.mergeSort_perm _ _
  · cases h

end Scalar

-- ============================================================= choices

/-- The choices of an option: each of them is listed, no two have one name,
and their names are those that messages list. -/
structure OptionKey.Offers (key : OptionKey) {α : Type} (all : List α) (name : α → String) :
    Prop where
  mem : ∀ a, a ∈ all
  eq_of_name : ∀ a b, name a = name b → a = b
  names : (all.map name).Perm key.choices

theorem OptionKey.offers_policy : Offers .policy Policy.all Policy.name where
  mem a := by cases a <;> decide
  eq_of_name a b h := by
    cases a <;> cases b <;> first | rfl | exact absurd h (by decide)
  names := by decide

theorem OptionKey.offers_hexMode : Offers .hexMode HexReading.all HexReading.name where
  mem a := by cases a <;> decide
  eq_of_name a b h := by
    cases a <;> cases b <;> first | rfl | exact absurd h (by decide)
  names := by decide

theorem OptionKey.offers_narrowing : Offers .narrowing Narrowing.all Narrowing.name where
  mem a := by cases a <;> decide
  eq_of_name a b h := by
    cases a <;> cases b <;> first | rfl | exact absurd h (by decide)
  names := by decide

theorem OptionKey.Offers.name_mem {key : OptionKey} {α : Type} {all : List α} {name : α → String}
    (h : key.Offers all name) (a : α) : name a ∈ key.choices :=
  h.names.mem_iff.mp (List.mem_map_of_mem (h.mem a))

/-- The choice that options make is one of those that messages list. -/
theorem Settings.choice_mem (options : Settings) (key : OptionKey) :
    options.choice key ∈ key.choices := by
  cases key with
  | policy => exact OptionKey.offers_policy.name_mem options.policy
  | hexMode => exact OptionKey.offers_hexMode.name_mem options.hexMode
  | narrowing => exact OptionKey.offers_narrowing.name_mem options.narrowing

section Choice

variable {α : Type} {key : OptionKey} {all : List α} {name : α → String} {a default : α}
  {given : Text}

theorem chosen?_eq_some_iff (hoffers : key.Offers all name) :
    chosen? all name given = some a ↔
      ∃ cs, given = .ofChars cs ∧ lowerAll cs = (name a).toList := by
  unfold chosen?
  simp only [Option.bind_eq_some_iff, Text.chars?_eq_some_iff]
  refine exists_congr fun cs => and_congr_right fun _ => ?_
  constructor
  · intro h
    have hname := List.find?_some h
    exact (beq_iff_eq.mp hname).symm
  · intro h
    cases hfound : all.find? fun b => (name b).toList == lowerAll cs with
    | none =>
        have hnone := List.find?_eq_none.mp hfound a (hoffers.mem a)
        rw [h, beq_self_eq_true] at hnone
        exact absurd rfl hnone
    | some b =>
        have hname := List.find?_some hfound
        rw [h, beq_iff_eq, String.toList_inj] at hname
        rw [hoffers.eq_of_name b a hname]

variable {entries : Keyed Scalar Datum}

theorem readChoice_of_missing (h : Keyed.find? key.key entries = none) :
    readChoice entries key all name default = .ok default := by
  unfold readChoice
  rw [h]

theorem readChoice_of_text (h : Keyed.find? key.key entries = some (.scalar (.str given))) :
    readChoice entries key all name default =
      match chosen? all name given with
      | none => .error (.optionChoice key given)
      | some a => .ok a := by
  unfold readChoice
  rw [h]
  rfl

theorem readChoice_of_other {d : Datum} (h : Keyed.find? key.key entries = some d)
    (htext : ∀ t, d ≠ .scalar (.str t)) :
    readChoice entries key all name default = .error (.optionType key d.typeName) := by
  unfold readChoice
  rw [h]
  simp only [Datum.str?_eq_none_iff.mpr htext]

/-- What makes a choice under a key is read as that choice. -/
theorem readChoice_eq_ok_iff (hoffers : key.Offers all name) :
    readChoice entries key all name default = .ok a ↔
      MakesChoice (name a) (name default) (Keyed.find? key.key entries) := by
  cases hfound : Keyed.find? key.key entries with
  | none =>
      rw [readChoice_of_missing hfound]
      refine ⟨fun h => congrArg name (Except.ok.inj h).symm, fun h => ?_⟩
      rw [hoffers.eq_of_name a default h]
  | some d =>
      rcases d.text_or_not with ⟨given, rfl⟩ | htext
      · rw [readChoice_of_text hfound]
        have hmakes : MakesChoice (name a) (name default) (some (.scalar (.str given))) ↔
            chosen? all name given = some a := by
          rw [chosen?_eq_some_iff hoffers]
          refine exists_congr fun cs => and_congr_left fun _ => ?_
          simp
        rw [hmakes]
        cases chosen? all name given <;> simp
      · rw [readChoice_of_other hfound htext]
        exact ⟨nofun, fun ⟨given, hgiven, _⟩ => absurd hgiven (htext (Text.ofChars given))⟩

end Choice

-- ============================================================= options

namespace Settings

variable {options : Settings} {entries : Keyed Scalar Datum}

theorem unknownKeys_eq_nil_iff :
    unknownKeys entries = [] ↔ ∀ k ∈ entries.keys, k ∈ OptionKey.all.map OptionKey.key := by
  simp [unknownKeys]

theorem ofDatum_of_inOrder? {k : Scalar} {ks : List Scalar}
    (h : Scalar.inOrder? (unknownKeys entries) = some (k :: ks)) :
    ofDatum (.dict entries) = .error (.unknownOptions (k :: ks)) := by
  simp only [ofDatum, h]

theorem exists_ofDatum_of_unknownKeys (h : unknownKeys entries ≠ []) :
    ∃ f, ofDatum (.dict entries) = .error f := by
  cases horder : Scalar.inOrder? (unknownKeys entries) with
  | none => exact ⟨.unlistedOptions, by simp only [ofDatum, horder]⟩
  | some keys =>
      obtain ⟨k, ks, rfl⟩ := List.exists_cons_of_ne_nil fun hnil : keys = [] =>
        h (List.nil_perm.mp (hnil ▸ Scalar.perm_of_inOrder? horder))
      exact ⟨_, ofDatum_of_inOrder? horder⟩

/-- Where no key is unknown, the choices are read one after the other. -/
theorem ofDatum_of_known (h : unknownKeys entries = []) :
    ofDatum (.dict entries) = do
      let policy ← readChoice entries .policy Policy.all Policy.name .strict
      let hexMode ← readChoice entries .hexMode HexReading.all HexReading.name .legacy
      let narrowing ← readChoice entries .narrowing Narrowing.all Narrowing.name .wrap
      return { policy, hexMode, narrowing } := by
  simp only [ofDatum, h, Scalar.inOrder?_nil]

/-- Options are read from a dictionary that makes their choices. -/
theorem ofDatum_dict_eq_ok_iff :
    ofDatum (.dict entries) = .ok options ↔ options.ChosenBy entries := by
  have hchoices : (do
      let policy ← readChoice entries .policy Policy.all Policy.name .strict
      let hexMode ← readChoice entries .hexMode HexReading.all HexReading.name .legacy
      let narrowing ← readChoice entries .narrowing Narrowing.all Narrowing.name .wrap
      return ({ policy, hexMode, narrowing } : Settings)) = .ok options ↔
      ∀ key : OptionKey, MakesChoice (options.choice key) (({} : Settings).choice key)
        (Keyed.find? key.key entries) := by
    simp only [bind_eq_ok_iff, readChoice_eq_ok_iff OptionKey.offers_policy,
      readChoice_eq_ok_iff OptionKey.offers_hexMode,
      readChoice_eq_ok_iff OptionKey.offers_narrowing]
    constructor
    · rintro ⟨policy, hpolicy, hexMode, hhexMode, narrowing, hnarrowing, h⟩
      cases Except.ok.inj h
      intro key
      cases key with
      | policy => exact hpolicy
      | hexMode => exact hhexMode
      | narrowing => exact hnarrowing
    · intro h
      exact ⟨_, h .policy, _, h .hexMode, _, h .narrowing, rfl⟩
  by_cases hunknown : unknownKeys entries = []
  · rw [ofDatum_of_known hunknown, hchoices]
    exact ⟨fun h => ⟨unknownKeys_eq_nil_iff.mp hunknown, h⟩, fun h => h.makes⟩
  · obtain ⟨f, hf⟩ := exists_ofDatum_of_unknownKeys hunknown
    rw [hf]
    refine ⟨fun h => ?_, fun h => absurd (unknownKeys_eq_nil_iff.mpr h.known) hunknown⟩
    cases h

theorem ofDatum_of_other {d : Datum} (hnull : d ≠ .scalar .null)
    (hdict : ∀ entries, d ≠ .dict entries) : ofDatum d = .error (.optionsType d.typeName) := by
  unfold ofDatum
  split
  · exact absurd rfl hnull
  next entries => exact absurd rfl (hdict entries)
  · rfl

/-- Options are read from what stands for them. -/
theorem ofDatum_eq_ok_iff {written : Option Datum} :
    ofDatum (written.getD (.scalar .null)) = .ok options ↔ options.GivenAs written := by
  unfold GivenAs
  split
  · exact ⟨fun h => (Except.ok.inj h).symm, fun h => h ▸ rfl⟩
  · exact ⟨fun h => (Except.ok.inj h).symm, fun h => h ▸ rfl⟩
  · exact ofDatum_dict_eq_ok_iff
  next d hnull hdict =>
    rw [Option.getD_some, ofDatum_of_other hnull hdict]
    exact ⟨nofun, False.elim⟩

end Settings

-- ====================================================== configurations

theorem readNames_of_text (t : Text) (items : List Datum) :
    readNames (.scalar (.str t) :: items) = (readNames items).map (t :: ·) := by
  rw [readNames]
  rfl

theorem readNames_of_other {d : Datum} (htext : ∀ t, d ≠ .scalar (.str t)) (items : List Datum) :
    readNames (d :: items) = .error (.entryType d.typeName) := by
  rw [readNames, Datum.str?_eq_none_iff.mpr htext]

/-- Names are read from a list of texts. -/
theorem readNames_eq_ok_iff {items : List Datum} {names : List Text} :
    readNames items = .ok names ↔ items = names.map fun name => .scalar (.str name) := by
  induction items generalizing names with
  | nil =>
      refine ⟨fun h => Except.ok.inj h ▸ rfl, fun h => ?_⟩
      rw [List.map_eq_nil_iff.mp h.symm]
      rfl
  | cons d items ih =>
      rcases d.text_or_not with ⟨t, rfl⟩ | htext
      · rw [readNames_of_text]
        cases hrest : readNames items with
        | error e =>
            refine ⟨nofun, fun h => ?_⟩
            obtain ⟨name, rest, -, -, hitems⟩ := List.map_eq_cons_iff.mp h.symm
            rw [ih.mpr hitems.symm] at hrest
            cases hrest
        | ok rest =>
            obtain rfl := ih.mp hrest
            refine ⟨fun h => Except.ok.inj h ▸ rfl, fun h => ?_⟩
            obtain ⟨name, rest', rfl, hname, hitems⟩ := List.map_eq_cons_iff.mp h.symm
            cases hname
            rw [ih.mpr hitems.symm] at hrest
            rw [Except.ok.inj hrest]
            rfl
      · rw [readNames_of_other htext]
        refine ⟨nofun, fun h => ?_⟩
        obtain ⟨name, rest, -, hname, -⟩ := List.map_eq_cons_iff.mp h.symm
        exact absurd hname.symm (htext name)

namespace Configuration

variable {c : Configuration} {entries : Keyed Scalar Datum}

theorem readDirective_eq_ok_iff {t : Text} :
    readDirective entries = .ok t ↔
      Keyed.find? (.word "directive") entries = some (.scalar (.str t)) := by
  unfold readDirective
  cases Keyed.find? (.word "directive") entries with
  | none => exact ⟨nofun, nofun⟩
  | some d =>
      cases d with
      | scalar s => cases s <;> simp [Datum.str?]
      | list items => simp [Datum.str?]
      | dict written => simp [Datum.str?]

theorem readShape_eq_ok_iff {names : List Text} :
    readShape entries = .ok names ↔
      Keyed.find? (.word "shape") entries =
        some (.list (names.map fun name => .scalar (.str name))) ∨
      (Keyed.find? (.word "shape") entries = none ∧ names = []) := by
  unfold readShape
  cases Keyed.find? (.word "shape") entries with
  | none => simp [eq_comm]
  | some d =>
      cases d with
      | list items => simp [readNames_eq_ok_iff]
      | scalar s => simp
      | dict written => simp

/-- A document is read as a configuration if it is a dictionary that holds
the parts of the configuration. -/
theorem ofDatum_eq_ok_iff {d : Datum} :
    ofDatum d = .ok c ↔ ∃ entries, d = .dict entries ∧ c.GivenBy entries := by
  cases d with
  | scalar s => exact ⟨nofun, fun ⟨_, h, _⟩ => nomatch h⟩
  | list items => exact ⟨nofun, fun ⟨_, h, _⟩ => nomatch h⟩
  | dict entries =>
      simp only [ofDatum, bind_eq_ok_iff, readDirective_eq_ok_iff, readShape_eq_ok_iff,
        Settings.ofDatum_eq_ok_iff]
      constructor
      · rintro ⟨directive, hdirective, shape, hshape, options, hoptions, h⟩
        cases Except.ok.inj h
        exact ⟨entries, rfl, hdirective, hshape, hoptions⟩
      · rintro ⟨entries', hentries, h⟩
        cases hentries
        exact ⟨_, h.directive, _, h.shape, _, h.options, rfl⟩

end Configuration

end Unformat
