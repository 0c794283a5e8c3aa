/-
The strict and the lenient policy beside each other, on the same text
with the other options the same (`Pattern.policies_agree`):

- where the strict one matches, the lenient one matches with the same
  values;
- where the lenient one matches, the strict one does so too if no value
  is missing, and otherwise names the first placeholder whose value is;
- where the lenient one does not match, neither does the strict one, and
  in a pattern that passes its check for the same cause.

The two runs part at the first entry without a value. Nothing is said
step by step, since the policies are already known by what they make of
the entries as a whole: only whether all kinds suit their types, and
whether some value is missing, has to be told apart.
-/
import Unformat.Proofs.Match.Values

namespace Unformat

variable {options : Settings}

-- ==================================================== the first missing

/-- What is told first is the first entry without a value. -/
theorem head?_drops_append {front back : List Entry} {e : Entry} (index : Nat)
    (hfront : ∀ d ∈ front, (d.value? options).isSome) (hnone : e.value? options = none) :
    (drops options index (front ++ e :: back)).head? =
      some (.dropped (e.cause options (index + front.length))) := by
  induction front generalizing index with
  | nil => simp [drops, hnone]
  | cons d front ih =>
      obtain ⟨hsome, hrest⟩ := List.forall_mem_cons.mp hfront
      rw [List.cons_append, drops, if_pos hsome, ih (index + 1) hrest, List.length_cons,
        Nat.add_right_comm, Nat.add_assoc]

namespace Pattern

variable {p : Pattern} {t : Text} {pieces : List (List Char)}

/-- The first placeholder, by its number, whose piece yields no
value. -/
structure FirstMissing (p : Pattern) (options : Settings) (pieces : List (List Char))
    (index : Nat) : Prop where
  lt : index < p.kinds.length
  none : p.value? options pieces index = none
  before : ∀ i < index, (p.value? options pieces i).isSome

theorem firstMissing_of_append (hpieces : t.pieces p.tokens = .ok pieces)
    (hshape : p.kinds.length = p.shape.length) {front back : List Entry} {e : Entry}
    (hentries : p.entries pieces = front ++ e :: back)
    (hfront : ∀ d ∈ front, (d.value? options).isSome) (hnone : e.value? options = none) :
    p.FirstMissing options pieces front.length where
  lt := by
    rw [← length_entries hpieces hshape, hentries, List.length_append, List.length_cons]
    omega
  none := by
    rw [value?, hentries, List.getElem?_append_right (Nat.le_refl _), Nat.sub_self]
    exact hnone
  before i hi := by
    rw [value?, hentries, List.getElem?_append_left hi, List.getElem?_eq_getElem hi]
    exact hfront _ (List.getElem_mem hi)

-- ========================================================= two policies

/-- What the reports of the two policies on one text owe to each other.
Values of the strict one are those of the lenient one. Values of the
lenient one are those that the pieces yield: if there is one for each
placeholder, they are those of the strict one, and otherwise that one
names the first placeholder without a value, for the cause that the
lenient one tells of first. What the lenient one rejects, the strict one
rejects, and for the same cause if the pattern passes its check. -/
structure Agree (p : Pattern) (t : Text) (hexMode : HexReading) (narrowing : Narrowing)
    (strict lenient : Report) : Prop where
  of_strict : ∀ values, strict.outcome = .matched values → lenient.outcome = .matched values
  of_lenient : ∀ values, lenient.outcome = .matched values →
    ∃ pieces, t.pieces p.tokens = .ok pieces ∧
      values = (List.range p.kinds.length).filterMap
        (p.value? ⟨.lenient, hexMode, narrowing⟩ pieces) ∧
      ((values.length = p.kinds.length ∧ strict.outcome = .matched values) ∨
        (values.length < p.kinds.length ∧ ∃ cause index,
          strict.outcome = .mismatch cause ∧
          (cause.reason = .decode ∨ cause.reason = .narrowing) ∧
          cause.Names index ∧ lenient.log.head? = some (.dropped cause) ∧
          p.FirstMissing ⟨.lenient, hexMode, narrowing⟩ pieces index))
  of_mismatch : ∀ cause, lenient.outcome = .mismatch cause →
    (∃ cause', strict.outcome = .mismatch cause') ∧
    (p.check = .ok () → strict.outcome = .mismatch cause)

variable {hexMode : HexReading} {narrowing : Narrowing}

/-- Two rejections agree if they are the same or the pattern does not
pass its check. -/
theorem agree_of_mismatch {slog llog : List Event} {scause lcause : Mismatch}
    (h : p.check = .ok () → scause = lcause) :
    p.Agree t hexMode narrowing (p.closed t ⟨slog, .mismatch scause⟩)
      (p.closed t ⟨llog, .mismatch lcause⟩) where
  of_strict values hvalues := by cases hvalues
  of_lenient values hvalues := by cases hvalues
  of_mismatch cause hcause := by
    obtain rfl := Outcome.mismatch.inj hcause
    exact ⟨⟨scause, rfl⟩, fun hcheck => congrArg Outcome.mismatch (h hcheck)⟩

/-- If no kind fails its type, the reports agree: they part where the
first value is missing. -/
theorem exists_agree_of_suits (hpieces : t.pieces p.tokens = .ok pieces)
    (hshape : p.kinds.length = p.shape.length)
    (hsuits : ∀ e ∈ p.entries pieces, e.2.1.suits e.2.2 = true) :
    ∃ strict lenient,
      readPieces ⟨.strict, hexMode, narrowing⟩ 0 (p.entries pieces) = .ok strict ∧
      readPieces ⟨.lenient, hexMode, narrowing⟩ 0 (p.entries pieces) = .ok lenient ∧
      p.Agree t hexMode narrowing (p.closed t strict) (p.closed t lenient) := by
  have hlenient : readPieces ⟨.lenient, hexMode, narrowing⟩ 0 (p.entries pieces) = .ok _ :=
    readPieces_lenient rfl 0 hsuits
  have hlength := length_entries hpieces hshape
  have hvalues := filterMap_entries p ⟨.lenient, hexMode, narrowing⟩ pieces
  rw [hlength] at hvalues
  rcases values_or_first_none ⟨.lenient, hexMode, narrowing⟩ (p.entries pieces) with
    hall | ⟨front, e, back, hentries, hnone, hfront⟩
  · have hstrict : readPieces ⟨.strict, hexMode, narrowing⟩ 0 (p.entries pieces) = .ok _ :=
      readPieces_strict 0 hsuits hall
    refine ⟨_, _, hstrict, hlenient, ⟨fun _ h => h, fun values h => ?_, fun _ h => by cases h⟩⟩
    obtain rfl := Outcome.matched.inj h
    refine ⟨pieces, hpieces, hvalues, .inl ⟨?_, rfl⟩⟩
    rw [List.filterMap_length_eq_length.mpr hall, hlength]
  · have hstrict : readPieces ⟨.strict, hexMode, narrowing⟩ 0 (p.entries pieces) =
        .ok ⟨[], .mismatch (e.cause ⟨.lenient, hexMode, narrowing⟩ (0 + front.length))⟩ := by
      rw [hentries, List.forall_mem_append, List.forall_mem_cons] at hsuits
      obtain ⟨hsuits, hsuit, -⟩ := hsuits
      rw [hentries]
      exact readPieces_strict_append rfl 0 hsuits hfront hsuit hnone
    refine ⟨_, _, hstrict, hlenient,
      ⟨fun _ h => (by cases h), fun values h => ?_, fun _ h => by cases h⟩⟩
    obtain rfl := Outcome.matched.inj h
    refine ⟨pieces, hpieces, hvalues, .inr ⟨?_, _, front.length, rfl, Entry.reason_cause _ _ e,
      ?_, ?_, firstMissing_of_append hpieces hshape hentries hfront hnone⟩⟩
    · rw [← hlength, List.length_filterMap_lt_length_iff_exists]
      refine ⟨e, ?_, hnone⟩
      rw [hentries]
      exact List.mem_append_right _ List.mem_cons_self
    · rw [Nat.zero_add]
      exact Entry.names_cause _ _ e
    · rw [hentries]
      exact head?_drops_append 0 hfront hnone

/-- Where some kind does not suit its type there is a mismatch. -/
theorem exists_mismatch_of_not_suits (options : Settings)
    (h : ¬ ∀ e ∈ p.entries pieces, e.2.1.suits e.2.2 = true) :
    ∃ log cause, readPieces options 0 (p.entries pieces) = .ok ⟨log, .mismatch cause⟩ := by
  obtain ⟨⟨log, outcome⟩, hread⟩ := exists_readPieces_eq_ok options 0 (p.entries pieces)
  cases outcome with
  | matched values => exact absurd (suits_of_matched hread) h
  | mismatch cause => exact ⟨log, cause, hread⟩

/-- The two policies agree on every text, with the other options the
same. -/
theorem policies_agree (p : Pattern) (t : Text) (hexMode : HexReading) (narrowing : Narrowing) :
    ∃ strict lenient,
      p.report ⟨.strict, hexMode, narrowing⟩ t = .ok strict ∧
      p.report ⟨.lenient, hexMode, narrowing⟩ t = .ok lenient ∧
      p.Agree t hexMode narrowing strict lenient := by
  rcases report_cases p t with ⟨cause, hreport⟩ | ⟨pieces, hpieces, hshape, hreport⟩
  · exact ⟨_, _, hreport _, hreport _, agree_of_mismatch fun _ => rfl⟩
  have hok : ∀ {options r}, readPieces options 0 (p.entries pieces) = .ok r →
      p.report options t = .ok (p.closed t r) := fun hread => by
    rw [hreport, hread]
    rfl
  by_cases hsuits : ∀ e ∈ p.entries pieces, e.2.1.suits e.2.2 = true
  · obtain ⟨strict, lenient, hstrict, hlenient, hagree⟩ :=
      exists_agree_of_suits hpieces hshape hsuits
    exact ⟨_, _, hok hstrict, hok hlenient, hagree⟩
  · obtain ⟨slog, scause, hstrict⟩ :=
      exists_mismatch_of_not_suits ⟨.strict, hexMode, narrowing⟩ hsuits
    obtain ⟨llog, lcause, hlenient⟩ :=
      exists_mismatch_of_not_suits ⟨.lenient, hexMode, narrowing⟩ hsuits
    refine ⟨_, _, hok hstrict, hok hlenient, agree_of_mismatch fun hcheck => ?_⟩
    exact absurd (suits_of_check hcheck pieces) hsuits

end Pattern

end Unformat
