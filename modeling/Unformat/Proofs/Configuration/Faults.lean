/-
Which fault a document is refused for: of all the faults that it has, the
one that comes first in a fixed order (`Configuration.ofDatum_eq_error_iff`).

The faults a document has are told without an order
(`Configuration.HasFault`): a text under the key of the directive may be
missing, and an entry of the shape be no text, and an option be unknown,
all at once. Their order is that of `ConfigurationFault.place`. The reader
goes through the places from the least on, one step for each stretch of
them. A step finds what is at fault in its stretch (`Finds`), and a step
after another finds what is at fault in both stretches (`Finds.bind`), so
each step is compared with the faults of its own places alone.
-/
import Mathlib.Data.List.Lex
import Mathlib.Data.List.Sort
import Unformat.Proofs.Configuration.Accepted

namespace Unformat

-- ============================================== statement vocabulary

/-- Keys that are texts, no two of them the same. -/
structure DistinctTexts (keys : List Scalar) : Prop where
  distinct : keys.Nodup
  text : ∀ k ∈ keys, ∃ name, k = .str name

/-- A datum that JSON can hold: the keys of its dictionaries are texts, and
it has no days and no moments. -/
inductive Datum.IsJson : Datum → Prop where
  | scalar {s : Scalar} (h : ∀ t, s ≠ .timestamp t) : IsJson (.scalar s)
  | list {items : List Datum} (h : ∀ d ∈ items, IsJson d) : IsJson (.list items)
  | dict {entries : Keyed Scalar Datum} (hkeys : DistinctTexts entries.keys)
      (h : ∀ e ∈ entries, IsJson e.2) : IsJson (.dict entries)

/-- Where an option stands among those that are checked. -/
def OptionKey.place : OptionKey → Nat
  | .policy => 0
  | .hexMode => 1
  | .narrowing => 2

/-- Where a fault stands in the order in which documents are checked. -/
def ConfigurationFault.place : ConfigurationFault → Nat
  | .document _ | .notDict _ => 0
  | .noDirective => 1
  | .directiveType _ => 2
  | .shapeType _ => 3
  | .entryType _ => 4
  | .optionsType _ => 5
  | .unknownOptions _ | .unlistedOptions => 6
  | .optionType key _ | .optionChoice key _ => 7 + key.place

namespace Configuration

/-- What is at fault in a document, whatever else is. -/
inductive HasFault : Datum → ConfigurationFault → Prop where
  | notDict {d : Datum} (h : ∀ entries, d ≠ .dict entries) : HasFault d (.notDict d.typeName)
  | noDirective {entries : Keyed Scalar Datum}
      (h : Keyed.find? (.word "directive") entries = none ∨
        Keyed.find? (.word "directive") entries = some (.scalar .null)) :
      HasFault (.dict entries) .noDirective
  | directiveType {entries : Keyed Scalar Datum} {d : Datum}
      (h : Keyed.find? (.word "directive") entries = some d)
      (hnull : d ≠ .scalar .null) (htext : ∀ t, d ≠ .scalar (.str t)) :
      HasFault (.dict entries) (.directiveType d.typeName)
  | shapeType {entries : Keyed Scalar Datum} {d : Datum}
      (h : Keyed.find? (.word "shape") entries = some d) (hlist : ∀ items, d ≠ .list items) :
      HasFault (.dict entries) (.shapeType d.typeName)
  /-- The entry is the first that is no text. -/
  | entryType {entries : Keyed Scalar Datum} {names : List Text} {d : Datum}
      {items : List Datum}
      (h : Keyed.find? (.word "shape") entries =
        some (.list (names.map (fun name => .scalar (.str name)) ++ d :: items)))
      (htext : ∀ t, d ≠ .scalar (.str t)) :
      HasFault (.dict entries) (.entryType d.typeName)
  | optionsType {entries : Keyed Scalar Datum} {d : Datum}
      (h : Keyed.find? (.word "options") entries = some d)
      (hnull : d ≠ .scalar .null) (hdict : ∀ written, d ≠ .dict written) :
      HasFault (.dict entries) (.optionsType d.typeName)
  /-- The names are those of all unknown options, in the order of their code
  points. -/
  | unknownOptions {entries written : Keyed Scalar Datum} {names : List Text}
      (h : Keyed.find? (.word "options") entries = some (.dict written))
      (hsome : names ≠ [])
      (horder : names.Pairwise fun a b => a.map CodePoint.value < b.map CodePoint.value)
      (hall : ∀ k, k ∈ names.map Scalar.str ↔
        k ∈ written.keys ∧ k ∉ OptionKey.all.map OptionKey.key) :
      HasFault (.dict entries) (.unknownOptions (names.map Scalar.str))
  | optionType {entries written : Keyed Scalar Datum} {key : OptionKey} {d : Datum}
      (h : Keyed.find? (.word "options") entries = some (.dict written))
      (hkey : Keyed.find? key.key written = some d) (htext : ∀ t, d ≠ .scalar (.str t)) :
      HasFault (.dict entries) (.optionType key d.typeName)
  | optionChoice {entries written : Keyed Scalar Datum} {key : OptionKey} {given : Text}
      (h : Keyed.find? (.word "options") entries = some (.dict written))
      (hkey : Keyed.find? key.key written = some (.scalar (.str given)))
      (hnone : ∀ name ∈ key.choices, ∀ cs, given = .ofChars cs → lowerAll cs ≠ name.toList) :
      HasFault (.dict entries) (.optionChoice key given)

/-- A step that goes through the places from `lo` to `hi`: it fails with
the first fault from `lo` on, which is the only one at its place, and gives
a result where none of them is at fault. -/
structure Finds (Has : ConfigurationFault → Prop) (lo hi : Nat) {α : Type}
    (x : Except ConfigurationFault α) : Prop where
  error : ∀ f, x = .error f →
    Has f ∧ lo ≤ f.place ∧ f.place < hi ∧ ∀ g, Has g → lo ≤ g.place → f.place < g.place ∨ g = f
  ok : ∀ a, x = .ok a → ∀ g, Has g → lo ≤ g.place → hi ≤ g.place

end Configuration

-- =============================================================== keys

namespace Keyed

variable {κ ν : Type} [DecidableEq κ] {key : κ} {v : ν} {entries : Keyed κ ν}

/-- An entry stands under its key, if no other key is the same. -/
theorem find?_eq_some_iff (h : (keys entries).Nodup) :
    find? key entries = some v ↔ (key, v) ∈ entries := by
  induction entries with
  | nil => simp [find?]
  | cons e rest ih =>
      obtain ⟨k, w⟩ := e
      obtain ⟨hk, hrest⟩ := List.nodup_cons.mp h
      by_cases hkey : k = key
      · subst hkey
        have hnot : (k, v) ∉ rest := fun hmem => hk (List.mem_map.mpr ⟨_, hmem, rfl⟩)
        simp [find?, hnot, eq_comm]
      · have hne : key ≠ k := Ne.symm hkey
        simp [find?, hkey, hne, ih hrest]

end Keyed

/-- Under the keys of what JSON can hold stands what JSON can hold. -/
theorem Datum.IsJson.of_find? {entries : Keyed Scalar Datum} (h : (Datum.dict entries).IsJson)
    {key : Scalar} {d : Datum} (hd : Keyed.find? key entries = some d) : d.IsJson := by
  cases h with
  | dict hkeys hvalues => exact hvalues _ ((Keyed.find?_eq_some_iff hkeys.distinct).mp hd)

-- ============================================================== steps

namespace Configuration

theorem place_lt (f : ConfigurationFault) : f.place < 10 := by
  have hkey : ∀ key : OptionKey, key.place < 3 := fun key => by cases key <;> decide
  cases f with
  | optionType key _ | optionChoice key _ => exact Nat.add_lt_add_left (hkey key) 7
  | _ => simp [ConfigurationFault.place]

namespace Finds

variable {Has : ConfigurationFault → Prop} {lo hi : Nat} {α β : Type}
  {x : Except ConfigurationFault α} {step : α → Except ConfigurationFault β}

/-- A step that fails with the faults of its places and with nothing else. -/
theorem of_exact (hsound : ∀ f, x = .error f → Has f ∧ lo ≤ f.place ∧ f.place < hi)
    (hcomplete : ∀ f, Has f → lo ≤ f.place → f.place < hi → x = .error f) :
    Finds Has lo hi x where
  error f hx := by
    obtain ⟨hf, hlo, hhi⟩ := hsound f hx
    refine ⟨hf, hlo, hhi, fun g hg hlog => ?_⟩
    by_cases hlt : g.place < hi
    · have hxg := hcomplete g hg hlog hlt
      exact .inr (Except.error.inj (hxg.symm.trans hx))
    · exact .inl (by omega)
  ok a hx g hg hlog := by
    by_contra hlt
    have hxg := hcomplete g hg hlog (by omega)
    exact nomatch hx.symm.trans hxg

theorem result (a : α) : Finds Has hi hi (.ok a : Except ConfigurationFault α) where
  error _ hx := nomatch hx
  ok _ _ _ _ hlo := hlo

/-- Places at which nothing is at fault can be passed over. -/
theorem skip (mid : Nat) (hle : lo ≤ mid) (hnone : ∀ g, Has g → lo ≤ g.place → mid ≤ g.place)
    (h : Finds Has mid hi x) : Finds Has lo hi x where
  error f hx := by
    obtain ⟨hf, hmid, hhi, hfirst⟩ := h.error f hx
    exact ⟨hf, by omega, hhi, fun g hg hlog => hfirst g hg (hnone g hg hlog)⟩
  ok a hx g hg hlog := h.ok a hx g hg (hnone g hg hlog)

/-- Behind the first fault nothing is looked at. -/
theorem stop (mid : Nat) (hle : mid ≤ hi) {e : ConfigurationFault}
    (h : Finds Has lo mid (.error e : Except ConfigurationFault α)) :
    Finds Has lo hi (.error e : Except ConfigurationFault β) where
  error f hf := by
    cases Except.error.inj hf
    obtain ⟨he, hlo, hmid, hfirst⟩ := h.error e rfl
    exact ⟨he, hlo, by omega, hfirst⟩
  ok _ hf := nomatch hf

/-- A step after another goes through the places of both. -/
theorem bind (mid : Nat) (hle : lo ≤ mid) (hle' : mid ≤ hi) (hx : Finds Has lo mid x)
    (hstep : ∀ a, Finds Has mid hi (step a)) : Finds Has lo hi (x >>= step) := by
  cases x with
  | ok a => exact skip mid hle (hx.ok a rfl) (hstep a)
  | error e => exact stop mid hle' hx

end Finds

-- ================================================= directive and shape

variable {entries written : Keyed Scalar Datum} {d : Datum}

theorem readDirective_of_missing
    (h : Keyed.find? (.word "directive") entries = none ∨
      Keyed.find? (.word "directive") entries = some (.scalar .null)) :
    readDirective entries = .error .noDirective := by
  unfold readDirective
  rcases h with h | h <;> rw [h]

theorem readDirective_of_other (h : Keyed.find? (.word "directive") entries = some d)
    (hnull : d ≠ .scalar .null) (htext : ∀ t, d ≠ .scalar (.str t)) :
    readDirective entries = .error (.directiveType d.typeName) := by
  unfold readDirective
  rw [h]
  split
  next hnone => cases hnone
  next hsome => exact absurd (Option.some.inj hsome) hnull
  next d' hother hsome =>
    cases Option.some.inj hsome
    rw [Datum.str?_eq_none_iff.mpr htext]

/-- Either there is a directive, or it is missing, or something else stands
in its place. -/
theorem directive_cases (entries : Keyed Scalar Datum) :
    (∃ t, Keyed.find? (.word "directive") entries = some (.scalar (.str t))) ∨
      (Keyed.find? (.word "directive") entries = none ∨
        Keyed.find? (.word "directive") entries = some (.scalar .null)) ∨
      ∃ d, Keyed.find? (.word "directive") entries = some d ∧ d ≠ .scalar .null ∧
        ∀ t, d ≠ .scalar (.str t) := by
  cases Keyed.find? (.word "directive") entries with
  | none => exact .inr (.inl (.inl rfl))
  | some d =>
      by_cases hnull : d = .scalar .null
      · exact .inr (.inl (.inr (congrArg some hnull)))
      · rcases d.text_or_not with ⟨t, rfl⟩ | htext
        · exact .inl ⟨t, rfl⟩
        · exact .inr (.inr ⟨d, rfl, hnull, htext⟩)

theorem finds_readDirective : Finds (HasFault (.dict entries)) 1 3 (readDirective entries) := by
  refine .of_exact (fun f h => ?_) (fun f hfault hlo hhi => ?_)
  · rcases directive_cases entries with ⟨t, hfound⟩ | hmissing | ⟨d, hfound, hnull, htext⟩
    · rw [readDirective_eq_ok_iff.mpr hfound] at h
      cases h
    · rw [readDirective_of_missing hmissing] at h
      cases h
      exact ⟨.noDirective hmissing, by decide, by decide⟩
    · rw [readDirective_of_other hfound hnull htext] at h
      cases h
      exact ⟨.directiveType hfound hnull htext, by simp [ConfigurationFault.place],
        by simp [ConfigurationFault.place]⟩
  · cases hfault with
    | noDirective hmissing => exact readDirective_of_missing hmissing
    | directiveType hfound hnull htext => exact readDirective_of_other hfound hnull htext
    | _ => simp +arith [ConfigurationFault.place] at hlo hhi

/-- All items are texts, or there is a first that is none. -/
theorem texts_or_first_other (items : List Datum) :
    (∃ names : List Text, items = names.map fun name => .scalar (.str name)) ∨
      ∃ (names : List Text) (d : Datum) (rest : List Datum),
        items = names.map (fun name => .scalar (.str name)) ++ d :: rest ∧
          ∀ t, d ≠ .scalar (.str t) := by
  induction items with
  | nil => exact .inl ⟨[], rfl⟩
  | cons d items ih =>
      rcases d.text_or_not with ⟨t, rfl⟩ | htext
      · rcases ih with ⟨names, rfl⟩ | ⟨names, d, rest, rfl, htext⟩
        · exact .inl ⟨t :: names, rfl⟩
        · exact .inr ⟨t :: names, d, rest, rfl, htext⟩
      · exact .inr ⟨[], d, items, rfl, htext⟩

theorem readNames_append_other (htext : ∀ t, d ≠ .scalar (.str t)) (names : List Text)
    (rest : List Datum) :
    readNames (names.map (fun name => .scalar (.str name)) ++ d :: rest) =
      .error (.entryType d.typeName) := by
  induction names with
  | nil => exact readNames_of_other htext rest
  | cons name names ih =>
      rw [List.map_cons, List.cons_append, readNames_of_text, ih]
      rfl

theorem readShape_of_list {items : List Datum}
    (h : Keyed.find? (.word "shape") entries = some (.list items)) :
    readShape entries = readNames items := by
  rw [readShape, h]

theorem readShape_of_other (h : Keyed.find? (.word "shape") entries = some d)
    (hlist : ∀ items, d ≠ .list items) : readShape entries = .error (.shapeType d.typeName) := by
  rw [readShape, h]
  cases d with
  | list items => exact absurd rfl (hlist items)
  | scalar s => rfl
  | dict written => rfl

theorem finds_readShape : Finds (HasFault (.dict entries)) 3 5 (readShape entries) := by
  refine .of_exact (fun f h => ?_) (fun f hfault hlo hhi => ?_)
  · cases hfound : Keyed.find? (.word "shape") entries with
    | none =>
        rw [readShape_eq_ok_iff.mpr (.inr ⟨hfound, rfl⟩)] at h
        cases h
    | some d =>
        by_cases hlist : ∃ items, d = .list items
        · obtain ⟨items, rfl⟩ := hlist
          rcases texts_or_first_other items with ⟨names, rfl⟩ | ⟨names, d, rest, rfl, htext⟩
          · rw [readShape_eq_ok_iff.mpr (.inl hfound)] at h
            cases h
          · rw [readShape_of_list hfound, readNames_append_other htext] at h
            cases h
            exact ⟨.entryType hfound htext, by simp [ConfigurationFault.place],
              by simp [ConfigurationFault.place]⟩
        · have hother : ∀ items, d ≠ .list items := fun items hd => hlist ⟨items, hd⟩
          rw [readShape_of_other hfound hother] at h
          cases h
          exact ⟨.shapeType hfound hother, by simp [ConfigurationFault.place],
            by simp [ConfigurationFault.place]⟩
  · cases hfault with
    | shapeType hfound hlist => exact readShape_of_other hfound hlist
    | entryType hfound htext =>
        rw [readShape_of_list hfound, readNames_append_other htext]
    | _ => simp +arith [ConfigurationFault.place] at hlo hhi

-- ============================================================= options

section Choice

variable {α : Type} {key : OptionKey} {all : List α} {name : α → String} {given : Text}

theorem chosen?_eq_none_iff (hoffers : key.Offers all name) :
    chosen? all name given = none ↔
      ∀ s ∈ key.choices, ∀ cs, given = .ofChars cs → lowerAll cs ≠ s.toList := by
  simp only [Option.eq_none_iff_forall_ne_some, Ne, chosen?_eq_some_iff hoffers, not_exists,
    not_and]
  constructor
  · intro h s hs
    obtain ⟨a, -, rfl⟩ := List.mem_map.mp (hoffers.names.mem_iff.mpr hs)
    exact h a
  · intro h a
    exact h (name a) (hoffers.name_mem a)

theorem OptionKey.place_inj {key' : OptionKey} (h : key.place = key'.place) : key = key' := by
  cases key <;> cases key' <;> first | rfl | cases h

theorem finds_readChoice (hoffers : key.Offers all name) (default : α)
    (hoptions : Keyed.find? (.word "options") entries = some (.dict written)) :
    Finds (HasFault (.dict entries)) (7 + key.place) (8 + key.place)
      (readChoice written key all name default) := by
  refine .of_exact (fun f h => ?_) (fun f hfault hlo hhi => ?_)
  · cases hfound : Keyed.find? key.key written with
    | none =>
        rw [readChoice_of_missing hfound] at h
        cases h
    | some d =>
        rcases d.text_or_not with ⟨given, rfl⟩ | htext
        · rw [readChoice_of_text hfound] at h
          split at h
          next hnone =>
            cases h
            have hother := (chosen?_eq_none_iff hoffers).mp hnone
            exact ⟨.optionChoice hoptions hfound hother, by simp [ConfigurationFault.place],
              by simp +arith [ConfigurationFault.place]⟩
          · cases h
        · rw [readChoice_of_other hfound htext] at h
          cases h
          exact ⟨.optionType hoptions hfound htext, by simp [ConfigurationFault.place],
            by simp +arith [ConfigurationFault.place]⟩
  · cases hfault with
    | @optionType _ written' key' d hoptions' hfound htext =>
        have hplace : key.place = key'.place := by
          simp only [ConfigurationFault.place] at hlo hhi
          omega
        cases OptionKey.place_inj hplace
        cases hoptions.symm.trans hoptions'
        exact readChoice_of_other hfound htext
    | @optionChoice _ written' key' given hoptions' hfound hnone =>
        have hplace : key.place = key'.place := by
          simp only [ConfigurationFault.place] at hlo hhi
          omega
        cases OptionKey.place_inj hplace
        cases hoptions.symm.trans hoptions'
        rw [readChoice_of_text hfound, (chosen?_eq_none_iff hoffers).mpr hnone]
    | _ => simp +arith [ConfigurationFault.place] at hlo hhi

end Choice

-- ===================================================== unknown options

theorem mem_unknownKeys_iff {k : Scalar} :
    k ∈ unknownKeys written ↔ k ∈ written.keys ∧ k ∉ OptionKey.all.map OptionKey.key := by
  simp only [unknownKeys, List.mem_filter, decide_eq_true_eq]

theorem exists_names {keys : List Scalar} (h : DistinctTexts keys) :
    ∃ names : List Text, keys = names.map Scalar.str ∧ names.Nodup := by
  obtain ⟨hdistinct, htext⟩ := h
  induction keys with
  | nil => exact ⟨[], rfl, .nil⟩
  | cons k keys ih =>
      obtain ⟨name, rfl⟩ := htext k List.mem_cons_self
      obtain ⟨names, rfl, hnodup⟩ :=
        ih (List.nodup_cons.mp hdistinct).2 fun k hk => htext k (List.mem_cons_of_mem _ hk)
      exact ⟨name :: names, rfl, .of_map _ hdistinct⟩

/-- Distinct texts are put in the order of their code points. -/
theorem exists_inOrder?_texts {names : List Text} (hdistinct : names.Nodup) :
    ∃ ordered : List Text, Scalar.inOrder? (names.map .str) = some (ordered.map .str) ∧
      ordered.Perm names ∧
      ordered.Pairwise fun a b => a.map CodePoint.value < b.map CodePoint.value := by
  let le : Text → Text → Bool := fun a b =>
    !decide (b.map CodePoint.value < a.map CodePoint.value)
  have hle : ∀ a b : Text, le a b = true ↔ a.map CodePoint.value ≤ b.map CodePoint.value :=
    fun a b => by simp only [le, Bool.not_eq_true', decide_eq_false_iff_not, not_lt]
  have hall : ((names.map Scalar.str).all fun a =>
      (names.map Scalar.str).all fun b => a.family = b.family) = true := by
    simp [Scalar.family]
  refine ⟨names.mergeSort le, ?_, List.mergeSort_perm _ _, ?_⟩
  · rw [Scalar.inOrder?, if_pos hall]
    refine congrArg some (Eq.symm ?_)
    exact List.map_mergeSort fun a _ b _ => rfl
  · have hsorted : (names.mergeSort le).Pairwise fun a b => le a b = true :=
      List.pairwise_mergeSort
        (fun a b c hab hbc => (hle a c).mpr (((hle a b).mp hab).trans ((hle b c).mp hbc)))
        (fun a b => by simpa only [Bool.or_eq_true, hle] using le_total _ _) _
    refine (hsorted.and (List.nodup_mergeSort.mpr hdistinct)).imp fun h => ?_
    obtain ⟨hab, hne⟩ := h
    refine lt_of_le_of_ne ((hle _ _).mp hab) fun hsame => hne ?_
    exact List.map_injective_iff.mpr (fun _ _ => CodePoint.value_injective) hsame

/-- Where the keys are texts, the unknown ones are listed by their code
points. -/
theorem exists_inOrder?_unknownKeys (hkeys : DistinctTexts written.keys) :
    ∃ unknown : List Text, Scalar.inOrder? (unknownKeys written) = some (unknown.map .str) ∧
      (unknown.map Scalar.str).Perm (unknownKeys written) ∧
      unknown.Pairwise fun a b => a.map CodePoint.value < b.map CodePoint.value := by
  have hdistinct : DistinctTexts (unknownKeys written) :=
    ⟨hkeys.distinct.filter _, fun k hk => hkeys.text k (List.mem_of_mem_filter hk)⟩
  obtain ⟨names, hnames, hnodup⟩ := exists_names hdistinct
  obtain ⟨unknown, heq, hperm, horder⟩ := exists_inOrder?_texts hnodup
  rw [hnames]
  exact ⟨unknown, heq, hperm.map _, horder⟩

/-- No other list in order has just these keys. -/
theorem inOrder?_unknownKeys {unknown : List Text} (hkeys : DistinctTexts written.keys)
    (horder : unknown.Pairwise fun a b => a.map CodePoint.value < b.map CodePoint.value)
    (hall : ∀ k, k ∈ unknown.map Scalar.str ↔
      k ∈ written.keys ∧ k ∉ OptionKey.all.map OptionKey.key) :
    Scalar.inOrder? (unknownKeys written) = some (unknown.map .str) := by
  obtain ⟨unknown', heq, hperm, horder'⟩ := exists_inOrder?_unknownKeys hkeys
  have hmem : ∀ name, name ∈ unknown' ↔ name ∈ unknown := fun name => by
    have hkey := hperm.mem_iff.trans (mem_unknownKeys_iff.trans (hall (.str name)).symm)
    simpa using hkey
  have hvalues : unknown'.map (List.map CodePoint.value) =
      unknown.map (List.map CodePoint.value) :=
    (List.pairwise_map.mpr horder').eq_of_mem_iff (List.pairwise_map.mpr horder) fun ns => by
      simp only [List.mem_map, hmem]
  have hsame : unknown' = unknown := by
    refine List.map_injective_iff.mpr (fun a b h => ?_) hvalues
    exact List.map_injective_iff.mpr (fun _ _ => CodePoint.value_injective) h
  rw [heq, hsame]

/-- Where no option is unknown, only the choices can be at fault. -/
theorem no_fault_of_known (hunknown : unknownKeys written = [])
    (hoptions : Keyed.find? (.word "options") entries = some (.dict written))
    {f : ConfigurationFault} (hfault : HasFault (.dict entries) f) (hplace : 5 ≤ f.place) :
    7 ≤ f.place := by
  cases hfault with
  | optionsType hoptions' hnull hdict =>
      cases hoptions.symm.trans hoptions'
      exact absurd rfl (hdict _)
  | @unknownOptions _ written' names hoptions' hsome horder hall =>
      cases hoptions.symm.trans hoptions'
      obtain ⟨name, hname⟩ := List.exists_mem_of_ne_nil names hsome
      have hmem := mem_unknownKeys_iff.mpr ((hall _).mp (List.mem_map_of_mem hname))
      rw [hunknown] at hmem
      cases hmem
  | optionType _ _ _ => exact Nat.le_add_right 7 _
  | optionChoice _ _ _ => exact Nat.le_add_right 7 _
  | _ => simp [ConfigurationFault.place] at hplace

theorem finds_choices
    (hoptions : Keyed.find? (.word "options") entries = some (.dict written))
    (hunknown : unknownKeys written = []) :
    Finds (HasFault (.dict entries)) 5 10 (Settings.ofDatum (.dict written)) := by
  rw [Settings.ofDatum_of_known hunknown]
  refine .skip 7 (by decide) (fun f => no_fault_of_known hunknown hoptions) ?_
  refine .bind 8 (by decide) (by decide)
    (finds_readChoice OptionKey.offers_policy _ hoptions) fun policy => ?_
  refine .bind 9 (by decide) (by decide)
    (finds_readChoice OptionKey.offers_hexMode _ hoptions) fun hexMode => ?_
  refine .bind 10 (by decide) (by decide)
    (finds_readChoice OptionKey.offers_narrowing _ hoptions) fun narrowing => ?_
  exact .result _

theorem finds_unknownOptions (hkeys : DistinctTexts written.keys)
    (hoptions : Keyed.find? (.word "options") entries = some (.dict written))
    (hunknown : unknownKeys written ≠ []) :
    Finds (HasFault (.dict entries)) 5 10 (Settings.ofDatum (.dict written)) := by
  obtain ⟨unknown, heq, hperm, horder⟩ := exists_inOrder?_unknownKeys hkeys
  have hsome : unknown ≠ [] := fun hnil =>
    hunknown (List.nil_perm.mp (by simpa [hnil] using hperm))
  have hread : Settings.ofDatum (.dict written) =
      .error (.unknownOptions (unknown.map Scalar.str)) := by
    obtain ⟨name, names, rfl⟩ := List.exists_cons_of_ne_nil hsome
    exact Settings.ofDatum_of_inOrder? heq
  rw [hread]
  refine .stop (α := Settings) 7 (by decide) (.of_exact (fun f h => ?_) fun f hfault hlo hhi => ?_)
  · cases Except.error.inj h
    have hall : ∀ k, k ∈ unknown.map Scalar.str ↔ _ := fun k =>
      hperm.mem_iff.trans mem_unknownKeys_iff
    exact ⟨.unknownOptions hoptions hsome horder hall, by simp [ConfigurationFault.place],
      by simp [ConfigurationFault.place]⟩
  · cases hfault with
    | optionsType hoptions' hnull hdict =>
        cases hoptions.symm.trans hoptions'
        exact absurd rfl (hdict _)
    | unknownOptions hoptions' hsome horder hall =>
        cases hoptions.symm.trans hoptions'
        rw [Option.some.inj (heq.symm.trans (inOrder?_unknownKeys hkeys horder hall))]
    | _ => simp +arith [ConfigurationFault.place] at hlo hhi

theorem finds_optionsType (hoptions : Keyed.find? (.word "options") entries = some d)
    (hnull : d ≠ .scalar .null) (hdict : ∀ written, d ≠ .dict written) :
    Finds (HasFault (.dict entries)) 5 10 (Settings.ofDatum d) := by
  rw [Settings.ofDatum_of_other hnull hdict]
  refine .stop (α := Settings) 6 (by decide) (.of_exact (fun f h => ?_) fun f hfault hlo hhi => ?_)
  · cases Except.error.inj h
    exact ⟨.optionsType hoptions hnull hdict, by simp [ConfigurationFault.place],
      by simp [ConfigurationFault.place]⟩
  · cases hfault with
    | optionsType hoptions' =>
        cases hoptions.symm.trans hoptions'
        rfl
    | _ => simp +arith [ConfigurationFault.place] at hlo hhi

/-- Where there are no options, none is at fault. -/
theorem no_fault_of_no_options
    (hoptions : ∀ d, Keyed.find? (.word "options") entries = some d → d = .scalar .null)
    {f : ConfigurationFault} (hfault : HasFault (.dict entries) f) (hplace : 5 ≤ f.place) :
    10 ≤ f.place := by
  cases hfault with
  | optionsType h hnull _ => exact absurd (hoptions _ h) hnull
  | unknownOptions h => cases hoptions _ h
  | optionType h => cases hoptions _ h
  | optionChoice h => cases hoptions _ h
  | _ => simp [ConfigurationFault.place] at hplace

theorem finds_options
    (hjson : ∀ d, Keyed.find? (.word "options") entries = some d → d.IsJson) :
    Finds (HasFault (.dict entries)) 5 10 (Settings.ofDatum
      ((Keyed.find? (.word "options") entries).getD (.scalar .null))) := by
  cases hoptions : Keyed.find? (.word "options") entries with
  | none =>
      have hnone : ∀ d, Keyed.find? (.word "options") entries = some d → d = .scalar .null :=
        fun d hd => nomatch hoptions.symm.trans hd
      exact .skip 10 (by decide) (fun f => no_fault_of_no_options hnone) (.result _)
  | some d =>
      by_cases hnull : d = .scalar .null
      · have hnone : ∀ d, Keyed.find? (.word "options") entries = some d →
            d = .scalar .null :=
          fun d' hd' => (Option.some.inj (hoptions.symm.trans hd')).symm.trans hnull
        rw [hnull]
        exact .skip 10 (by decide) (fun f => no_fault_of_no_options hnone) (.result _)
      · by_cases hdict : ∃ written, d = .dict written
        · obtain ⟨written, rfl⟩ := hdict
          cases hjson _ hoptions with
          | dict hkeys _ =>
              by_cases hunknown : unknownKeys written = []
              · exact finds_choices hoptions hunknown
              · exact finds_unknownOptions hkeys hoptions hunknown
        · exact finds_optionsType hoptions hnull fun written hd => hdict ⟨written, hd⟩

-- =========================================================== documents

theorem finds_ofDatum {d : Datum} (hjson : d.IsJson) : Finds (HasFault d) 0 10 (ofDatum d) := by
  by_cases hdict : ∃ entries, d = .dict entries
  · obtain ⟨entries, rfl⟩ := hdict
    have hno_fault : ∀ f, HasFault (.dict entries) f → 0 ≤ f.place → 1 ≤ f.place := by
      intro f hfault _
      cases hfault with
      | notDict hdict => exact absurd rfl (hdict entries)
      | _ => simp +arith [ConfigurationFault.place]
    refine .skip 1 (by decide) hno_fault ?_
    refine .bind 3 (by decide) (by decide) finds_readDirective fun directive => ?_
    refine .bind 5 (by decide) (by decide) finds_readShape fun shape => ?_
    refine .bind 10 (by decide) (by decide)
      (finds_options fun d => hjson.of_find?) fun options => ?_
    exact .result _
  · have hother : ∀ entries, d ≠ .dict entries := fun entries hd => hdict ⟨entries, hd⟩
    have hread : ofDatum d = .error (.notDict d.typeName) := by
      cases d with
      | dict entries => exact absurd rfl (hother entries)
      | scalar s => rfl
      | list items => rfl
    rw [hread]
    refine .stop (α := Configuration) 1 (by decide)
      (.of_exact (fun f h => ?_) fun f hfault _ _ => ?_)
    · cases Except.error.inj h
      exact ⟨.notDict hother, Nat.zero_le _, by simp [ConfigurationFault.place]⟩
    · cases hfault with
      | notDict => rfl
      | _ => exact absurd rfl (hother _)

/-- A document is refused for the first of its faults. -/
theorem ofDatum_eq_error_iff {d : Datum} (hjson : d.IsJson) {f : ConfigurationFault} :
    ofDatum d = .error f ↔ HasFault d f ∧ ∀ g, HasFault d g → f.place ≤ g.place := by
  have hfinds := finds_ofDatum hjson
  constructor
  · intro h
    obtain ⟨hf, -, -, hfirst⟩ := hfinds.error f h
    refine ⟨hf, fun g hg => ?_⟩
    rcases hfirst g hg (Nat.zero_le _) with hlt | rfl
    · exact hlt.le
    · exact le_rfl
  · rintro ⟨hf, hleast⟩
    cases hresult : ofDatum d with
    | ok c => exact absurd (hfinds.ok c hresult f hf (Nat.zero_le _)) (not_le.mpr (place_lt f))
    | error e =>
        obtain ⟨he, -, -, hfirst⟩ := hfinds.error e hresult
        rcases hfirst f hf (Nat.zero_le _) with hlt | rfl
        · exact absurd (hleast e he) (by omega)
        · rfl

end Configuration

end Unformat
