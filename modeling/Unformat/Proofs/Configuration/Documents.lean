/-
What a document is read as (`Configuration.documents_read`): the
configuration whose parts it holds, or the first of its faults.

Neither the order of keys nor any key besides those of the parts matters.
Where dictionaries differ in the order of their keys alone, each key finds
the same but for the order of keys (`Datum.Reordered.find?`), and the
reader looks at no more than what keys find and at the set of the keys of
options.
-/
import Unformat.Proofs.Configuration.Faults
import Unformat.Proofs.Configuration.Written

namespace Unformat

-- ============================================== statement vocabulary

/-- Data that are the same but for the order of keys. -/
inductive Datum.Reordered : Datum → Datum → Prop where
  | scalar (s : Scalar) : Reordered (.scalar s) (.scalar s)
  | list {items items' : List Datum} (h : List.Forall₂ Reordered items items') :
      Reordered (.list items) (.list items')
  | dict {entries entries' : Keyed Scalar Datum} (moved : Keyed Scalar Datum)
      (hmoved : entries.Perm moved) (hkeys : moved.map Prod.fst = entries'.map Prod.fst)
      (hvalues : List.Forall₂ Reordered (moved.map Prod.snd) (entries'.map Prod.snd)) :
      Reordered (.dict entries) (.dict entries')

/-- The keys under which the parts of a configuration stand. -/
def Configuration.partKeys : List Scalar :=
  [.word "directive", .word "shape", .word "options"]

-- ================================================================ keys

namespace Keyed

variable {κ ν : Type} [DecidableEq κ] {entries entries' : Keyed κ ν}

/-- What stands under distinct keys does not depend on their order. -/
theorem find?_eq_of_perm (hdistinct : (keys entries).Nodup) (h : entries.Perm entries') (key : κ) :
    find? key entries' = find? key entries := by
  have hdistinct' : (keys entries').Nodup := ((h.map Prod.fst).nodup_iff).mp hdistinct
  refine Option.ext fun v => ?_
  rw [find?_eq_some_iff hdistinct, find?_eq_some_iff hdistinct', h.mem_iff]

/-- Related values stand under the same keys. -/
theorem find?_rel {R : ν → ν → Prop} (hkeys : entries.map Prod.fst = entries'.map Prod.fst)
    (hvalues : List.Forall₂ R (entries.map Prod.snd) (entries'.map Prod.snd)) (key : κ) :
    Option.Rel R (find? key entries) (find? key entries') := by
  induction entries generalizing entries' with
  | nil =>
      rw [List.map_eq_nil_iff.mp hkeys.symm]
      exact .none
  | cons e rest ih =>
      obtain ⟨k, v⟩ := e
      obtain ⟨⟨k', v'⟩, rest', rfl, rfl, hrest⟩ := List.map_eq_cons_iff.mp hkeys.symm
      obtain ⟨hv, hvalues⟩ := List.forall₂_cons.mp hvalues
      by_cases hk : k' = key
      · simpa only [find?, if_pos hk] using Option.Rel.some hv
      · simpa only [find?, if_neg hk] using ih hrest.symm hvalues

end Keyed

-- ============================================================== orders

namespace Datum

variable {d d' : Datum} {entries entries' : Keyed Scalar Datum}

theorem Reordered.str?_eq (h : d.Reordered d') : d'.str? = d.str? := by
  cases h <;> rfl

theorem Reordered.typeName_eq (h : d.Reordered d') : d'.typeName = d.typeName := by
  cases h <;> rfl

theorem Reordered.perm_keys (h : Reordered (.dict entries) (.dict entries')) :
    (Keyed.keys entries).Perm (Keyed.keys entries') := by
  cases h with
  | dict moved hmoved hkeys _ =>
      rw [Keyed.keys, Keyed.keys, ← hkeys]
      exact hmoved.map Prod.fst

/-- Under each key stands the same but for the order of keys. -/
theorem Reordered.find? (hdistinct : (Keyed.keys entries).Nodup)
    (h : Reordered (.dict entries) (.dict entries')) (key : Scalar) :
    Option.Rel Reordered (Keyed.find? key entries) (Keyed.find? key entries') := by
  cases h with
  | dict moved hmoved hkeys hvalues =>
      rw [← Keyed.find?_eq_of_perm hdistinct hmoved key]
      exact Keyed.find?_rel hkeys hvalues key

end Datum

-- ============================================================= results

variable {entries entries' : Keyed Scalar Datum}

theorem readNames_congr {items items' : List Datum}
    (h : List.Forall₂ Datum.Reordered items items') : readNames items' = readNames items := by
  induction h with
  | nil => rfl
  | cons hd _ ih => rw [readNames, readNames, hd.str?_eq, hd.typeName_eq, ih]

theorem readChoice_congr {α : Type} {key : OptionKey} {all : List α} {name : α → String}
    {default : α} (h : Option.Rel Datum.Reordered (Keyed.find? key.key entries)
      (Keyed.find? key.key entries')) :
    readChoice entries' key all name default = readChoice entries key all name default := by
  unfold readChoice
  generalize Keyed.find? key.key entries = found, Keyed.find? key.key entries' = found' at h
  cases h with
  | none => rfl
  | some hd => simp only [hd.str?_eq, hd.typeName_eq]

namespace Configuration

/-- The unknown options are listed in the same order. -/
theorem inOrder?_unknownKeys_congr (hkeys : DistinctTexts entries.keys)
    (hperm : (Keyed.keys entries).Perm (Keyed.keys entries')) :
    Scalar.inOrder? (unknownKeys entries') = Scalar.inOrder? (unknownKeys entries) := by
  have hkeys' : DistinctTexts entries'.keys :=
    ⟨hperm.nodup_iff.mp hkeys.distinct, fun k hk => hkeys.text k (hperm.mem_iff.mpr hk)⟩
  obtain ⟨unknown, heq, hunknown, horder⟩ := exists_inOrder?_unknownKeys hkeys
  rw [heq]
  refine inOrder?_unknownKeys hkeys' horder fun k => ?_
  rw [hunknown.mem_iff, mem_unknownKeys_iff, hperm.mem_iff]

theorem ofDatum_options_congr {d d' : Datum} (hjson : d.IsJson) (h : d.Reordered d') :
    Settings.ofDatum d' = Settings.ofDatum d := by
  cases hjson with
  | scalar _ =>
      cases h with
      | scalar s => rfl
  | list _ =>
      cases h with
      | list _ => rfl
  | @dict entries hkeys hvalues =>
      cases h' : h with
      | @dict _ entries' _ _ _ _ =>
          have hunknown := inOrder?_unknownKeys_congr hkeys h.perm_keys
          have hfind := fun key : OptionKey => h.find? hkeys.distinct key.key
          simp only [Settings.ofDatum, hunknown, readChoice_congr (hfind .policy),
            readChoice_congr (hfind .hexMode), readChoice_congr (hfind .narrowing)]

theorem readDirective_congr
    (h : Option.Rel Datum.Reordered (Keyed.find? (.word "directive") entries)
      (Keyed.find? (.word "directive") entries')) :
    readDirective entries' = readDirective entries := by
  unfold readDirective
  generalize Keyed.find? (.word "directive") entries = found,
    Keyed.find? (.word "directive") entries' = found' at h
  cases h with
  | none => rfl
  | some hd => cases hd <;> rfl

theorem readShape_congr
    (h : Option.Rel Datum.Reordered (Keyed.find? (.word "shape") entries)
      (Keyed.find? (.word "shape") entries')) :
    readShape entries' = readShape entries := by
  unfold readShape
  generalize Keyed.find? (.word "shape") entries = found,
    Keyed.find? (.word "shape") entries' = found' at h
  cases h with
  | none => rfl
  | some hd =>
      cases hd with
      | list hitems => exact readNames_congr hitems
      | scalar s => rfl
      | dict _ _ _ _ => rfl

/-- The order of keys does not matter. -/
theorem ofDatum_congr {d d' : Datum} (hjson : d.IsJson) (h : d.Reordered d') :
    ofDatum d' = ofDatum d := by
  cases h' : h with
  | scalar s => rfl
  | list _ => rfl
  | @dict entries entries' _ _ _ _ =>
      have hdistinct : (Keyed.keys entries).Nodup := by
        cases hjson with
        | dict hkeys _ => exact hkeys.distinct
      have hoptions : Settings.ofDatum
            ((Keyed.find? (.word "options") entries').getD (.scalar .null)) =
          Settings.ofDatum
            ((Keyed.find? (.word "options") entries).getD (.scalar .null)) := by
        have hrel := h.find? hdistinct (.word "options")
        cases hfound : Keyed.find? (.word "options") entries with
        | none =>
            rw [hfound] at hrel
            generalize Keyed.find? (.word "options") entries' = found' at hrel
            cases hrel
            rfl
        | some d =>
            have hd := hjson.of_find? hfound
            rw [hfound] at hrel
            generalize Keyed.find? (.word "options") entries' = found' at hrel
            cases hrel with
            | some hd' => exact ofDatum_options_congr hd hd'
      simp only [ofDatum, readDirective_congr (h.find? hdistinct _),
        readShape_congr (h.find? hdistinct _), hoptions]

/-- Only what stands under the keys of the parts matters. -/
theorem ofDatum_of_parts
    (h : ∀ key ∈ partKeys, Keyed.find? key entries' = Keyed.find? key entries) :
    ofDatum (.dict entries') = ofDatum (.dict entries) := by
  have hdirective := h (.word "directive") (by decide)
  have hshape := h (.word "shape") (by decide)
  have hoptions := h (.word "options") (by decide)
  simp only [ofDatum, readDirective, readShape, hdirective, hshape, hoptions]

-- ============================================================ documents

/-- What is written out is what JSON can hold. -/
theorem isJson_toEntries (c : Configuration) : (Datum.dict c.toEntries).IsJson := by
  have htext : ∀ t, (Datum.scalar (.str t)).IsJson := fun t => .scalar nofun
  have hshape : (Datum.list (c.shape.map fun name => .scalar (.str name))).IsJson := by
    refine .list fun d hd => ?_
    obtain ⟨name, -, rfl⟩ := List.mem_map.mp hd
    exact htext name
  have hoptions : (Datum.dict c.options.toEntries).IsJson := by
    have hkeys : Keyed.keys c.options.toEntries = OptionKey.all.map OptionKey.key := by
      rw [Keyed.keys, Settings.toEntries, List.map_map]
      rfl
    refine .dict ?_ fun e he => ?_
    · rw [hkeys]
      refine ⟨by decide, fun k hk => ?_⟩
      obtain ⟨key, -, rfl⟩ := List.mem_map.mp hk
      exact ⟨_, rfl⟩
    · obtain ⟨key, -, rfl⟩ := List.mem_map.mp he
      exact htext _
  have hkeys : DistinctTexts (Keyed.keys c.toEntries) := by
    have hparts : Keyed.keys c.toEntries = partKeys := rfl
    rw [hparts]
    refine ⟨by decide, fun k hk => ?_⟩
    simp only [partKeys, List.mem_cons, List.not_mem_nil, or_false] at hk
    rcases hk with rfl | rfl | rfl <;> exact ⟨_, rfl⟩
  refine .dict hkeys fun e he => ?_
  simp only [toEntries, List.mem_cons, List.not_mem_nil, or_false] at he
  rcases he with rfl | rfl | rfl
  · exact htext _
  · exact hshape
  · exact hoptions

/-- A document is read as the configuration whose parts it holds. If it
holds those of none, it has faults, and is refused for the first of them.
The order of keys does not matter, at any depth, and besides the keys of
the parts none does. Every configuration can be written out and read
again. -/
theorem documents_read {d : Datum} (hjson : d.IsJson) :
    (∀ c, ofDatum d = .ok c ↔ ∃ entries, d = .dict entries ∧ c.GivenBy entries) ∧
      (∀ f, ofDatum d = .error f ↔
        HasFault d f ∧ ∀ g, HasFault d g → f.place ≤ g.place) ∧
      (∀ d', d.Reordered d' → ofDatum d' = ofDatum d) ∧
      (∀ entries entries', d = .dict entries →
        (∀ key ∈ partKeys, Keyed.find? key entries' = Keyed.find? key entries) →
        ofDatum (.dict entries') = ofDatum d) ∧
      ∀ c : Configuration,
        (Datum.dict c.toEntries).IsJson ∧ ofDatum (.dict c.toEntries) = .ok c := by
  refine ⟨fun c => ofDatum_eq_ok_iff, fun f => ofDatum_eq_error_iff hjson,
    fun d' => ofDatum_congr hjson, ?_, fun c => ⟨c.isJson_toEntries, ?_⟩⟩
  · rintro entries entries' rfl hparts
    exact ofDatum_of_parts hparts
  · exact ofDatum_of_writtenIn c.writtenIn_toEntries

/-- An entry of the shape is no text, an option is unknown and the policy
is a number, wherever the keys stand. -/
theorem documents_read_entry :
    let options : Keyed Scalar Datum :=
      [(.word "zeta", .scalar .null), (.word "policy", .scalar (.int 1))]
    let shape : Datum := .list [.scalar (.word "INT64"), .scalar (.bool true)]
    let d : Datum := .dict [(.word "options", .dict options), (.word "shape", shape),
      (.word "directive", .scalar (.word "%d"))]
    let d' : Datum := .dict [(.word "directive", .scalar (.word "%d")),
      (.word "options", .dict options.reverse), (.word "shape", shape)]
    d.IsJson ∧ d.Reordered d' ∧ HasFault d (.entryType "bool") ∧
      HasFault d (.optionType .policy "int") ∧ ofDatum d' = .error (.entryType "bool") := by
  intro options shape d d'
  have hoptions : (Datum.dict options).IsJson := by
    refine .dict ⟨by decide, ?_⟩ ?_
    · exact List.forall_mem_cons.mpr ⟨⟨_, rfl⟩, List.forall_mem_singleton.mpr ⟨_, rfl⟩⟩
    · exact List.forall_mem_cons.mpr ⟨.scalar nofun, List.forall_mem_singleton.mpr (.scalar nofun)⟩
  have hshape : shape.IsJson :=
    .list (List.forall_mem_cons.mpr ⟨.scalar nofun, List.forall_mem_singleton.mpr (.scalar nofun)⟩)
  have hjson : d.IsJson := by
    refine .dict ⟨by decide, ?_⟩ ?_
    · exact List.forall_mem_cons.mpr ⟨⟨_, rfl⟩, List.forall_mem_cons.mpr ⟨⟨_, rfl⟩,
        List.forall_mem_singleton.mpr ⟨_, rfl⟩⟩⟩
    · exact List.forall_mem_cons.mpr ⟨hoptions, List.forall_mem_cons.mpr ⟨hshape,
        List.forall_mem_singleton.mpr (.scalar nofun)⟩⟩
  have hmoved : d.Reordered d' := by
    have hsame : shape.Reordered shape := .list (.cons (.scalar _) (.cons (.scalar _) .nil))
    have hreversed : (Datum.dict options).Reordered (.dict options.reverse) :=
      .dict options.reverse (List.reverse_perm options).symm rfl
        (.cons (.scalar _) (.cons (.scalar _) .nil))
    refine .dict [(.word "directive", .scalar (.word "%d")),
      (.word "options", .dict options), (.word "shape", shape)] ?_ rfl
      (.cons (.scalar _) (.cons hreversed (.cons hsame .nil)))
    exact ((List.Perm.swap _ _ _).cons _).trans (.swap _ _ _)
  have hread : ofDatum d = .error (.entryType "bool") := rfl
  obtain ⟨-, hfirst, horder, -⟩ := documents_read hjson
  have hpolicy : HasFault d (.optionType .policy "int") :=
    HasFault.optionType (d := .scalar (.int 1)) rfl rfl nofun
  exact ⟨hjson, hmoved, ((hfirst _).mp hread).1, hpolicy, (horder d' hmoved).trans hread⟩

end Configuration

end Unformat
