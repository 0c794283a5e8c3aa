/-
Checked narrowing beside wrapping, on the same text with the other
options the same (`Pattern.checked_refines_wrap`):

- under the strict policy the two runs are the same, or the checked one
  ends at an entry that is out of range;
- under the lenient one they are rejected for the same cause, or both
  match, and the checked one is short of the values that are out of
  range;
- without 32-bit types they are the same under either policy.

An entry is out of range (`Entry.outOfRange`) by what its kind reads and
by its type, before anything is narrowed, and this is all in which the
values of the two runs differ (`Entry.value?_checked`). The strict runs
stay together up to the first such entry, so they are compared step by
step. The lenient ones are known by what they make of the entries as a
whole (`Pattern.exists_values_of_removed`).
-/
import Unformat.Proofs.Match.Typed
import Unformat.Proofs.Shape.Narrowing

namespace Unformat

-- ============================================================= entries

namespace Entry

/-- What an entry's kind reads is an integer out of the range of its
type. -/
def outOfRange (mode : HexReading) : Entry → Bool
  | (piece, kind, target) =>
      (kind.read? mode (Text.ofChars piece)).any (Value.outOfRange target)

variable {mode : HexReading} {e : Entry}

/-- If narrowing is checked, entries out of range have no value, and all
others the value that they have if it is not. -/
theorem value?_checked (policy : Policy) (mode : HexReading) (e : Entry) :
    e.value? ⟨policy, mode, .checked⟩ =
      if e.outOfRange mode then none else e.value? ⟨policy, mode, .wrap⟩ := by
  obtain ⟨piece, kind, target⟩ := e
  have hout : outOfRange mode (piece, kind, target)
      = (kind.read? mode (Text.ofChars piece)).any (Value.outOfRange target) := rfl
  rw [hout]
  simp only [value?]
  cases kind.read? mode (Text.ofChars piece) with
  | none => rfl
  | some u =>
      simp only [Option.bind_some, Option.any_some, Value.fit_checked]
      by_cases hrange : u.outOfRange target = true
      · rw [if_pos hrange, if_pos hrange]
        rfl
      · rw [if_neg hrange, if_neg hrange]

theorem value?_checked_of_inRange (policy : Policy) (h : e.outOfRange mode = false) :
    e.value? ⟨policy, mode, .checked⟩ = e.value? ⟨policy, mode, .wrap⟩ := by
  rw [value?_checked, h, if_neg Bool.false_ne_true]

theorem value?_checked_of_outOfRange (policy : Policy) (h : e.outOfRange mode = true) :
    e.value? ⟨policy, mode, .checked⟩ = none := by
  rw [value?_checked, if_pos h]

/-- Only entries of two types are ever out of range. -/
theorem target_of_outOfRange (h : e.outOfRange mode = true) :
    e.2.2 = .int32 ∨ e.2.2 = .uint32 := by
  obtain ⟨piece, kind, target⟩ := e
  obtain ⟨u, -, hrange⟩ := (Option.any_eq_true _ _).mp h
  exact Value.target_of_outOfRange hrange

/-- An entry out of range is told of as one that does not fit. -/
theorem cause_of_outOfRange {options : Settings} (h : e.outOfRange options.hexMode = true)
    (index : Nat) : e.cause options index = .unfit index e.1 e.2.2 := by
  obtain ⟨piece, kind, target⟩ := e
  obtain ⟨u, hread, -⟩ := (Option.any_eq_true _ _).mp h
  simp only [cause, hread, Option.isSome_some, if_true]

/-- That an entry out of range does not fit is a matter of narrowing. -/
theorem reason_of_outOfRange (h : e.outOfRange mode = true) (index : Nat) :
    (Mismatch.unfit index e.1 e.2.2).reason = .narrowing := by
  rcases target_of_outOfRange h with htarget | htarget
  · rw [htarget]
    rfl
  · rw [htarget]
    rfl

/-- Unless narrowing is checked, an entry of a 32-bit type has a value as
soon as its kind reads one. -/
theorem exists_value?_wrap {policy : Policy} {piece : List Char} {kind : Kind}
    {target : ElementType} (hread : (kind.read? mode (Text.ofChars piece)).isSome = true)
    (htarget : target = .int32 ∨ target = .uint32) :
    ∃ v, value? ⟨policy, mode, .wrap⟩ (piece, kind, target) = some v := by
  obtain ⟨u, hu⟩ := Option.isSome_iff_exists.mp hread
  obtain ⟨v, hv⟩ := u.exists_fit_wrap htarget
  exact ⟨v, value?_eq_some_iff.mpr ⟨u, hu, hv⟩⟩

/-- Where a value is missing by a matter of narrowing, narrowing is
checked, and the entry is out of range. -/
theorem outOfRange_of_narrowing {options : Settings} {index : Nat} (hnone : e.value? options = none)
    (hreason : (e.cause options index).reason = .narrowing) :
    options.narrowing = .checked ∧ e.outOfRange options.hexMode = true := by
  obtain ⟨policy, mode, narrowing⟩ := options
  have hwrap : ∃ v, e.value? ⟨policy, mode, .wrap⟩ = some v := by
    obtain ⟨piece, kind, target⟩ := e
    simp only [cause] at hreason
    split at hreason
    · next hread =>
        apply exists_value?_wrap hread
        cases target with
        | int32 => exact .inl rfl
        | uint32 => exact .inr rfl
        | _ => cases hreason
    · cases hreason
  obtain ⟨v, hv⟩ := hwrap
  cases narrowing with
  | wrap =>
      rw [hv] at hnone
      cases hnone
  | checked =>
      rw [value?_checked, hv] at hnone
      by_cases hrange : e.outOfRange mode = true
      · exact ⟨rfl, hrange⟩
      · rw [if_neg hrange] at hnone
        cases hnone

end Entry

-- ============================================================== reading

variable {mode : HexReading}

/-- The strict runs are the same, unless the checked one ends at an entry
out of range. -/
theorem readPieces_checked_strict (mode : HexReading) (index : Nat) (entries : List Entry) :
    readPieces ⟨.strict, mode, .checked⟩ index entries
        = readPieces ⟨.strict, mode, .wrap⟩ index entries ∨
      ∃ i e, entries[i]? = some e ∧ e.outOfRange mode = true ∧
        readPieces ⟨.strict, mode, .checked⟩ index entries
          = .ok ⟨[], .mismatch (.unfit (index + i) e.1 e.2.2)⟩ := by
  induction entries generalizing index with
  | nil => exact .inl rfl
  | cons e entries ih =>
      have hwrap := Entry.readPiece_eq ⟨.strict, mode, .wrap⟩ index e
      have hchecked := Entry.readPiece_eq ⟨.strict, mode, .checked⟩ index e
      cases hsuits : e.2.1.suits e.2.2 with
      | false =>
          left
          exact (readPieces_of_misfit hsuits).trans (readPieces_of_misfit hsuits).symm
      | true =>
          cases hrange : e.outOfRange mode with
          | true =>
              right
              rw [Entry.value?_checked_of_outOfRange .strict hrange,
                Entry.cause_of_outOfRange hrange] at hchecked
              exact ⟨0, e, rfl, hrange, readPieces_of_strict hsuits hchecked rfl⟩
          | false =>
              rw [Entry.value?_checked_of_inRange .strict hrange] at hchecked
              cases hvalue : e.value? ⟨.strict, mode, .wrap⟩ with
              | none =>
                  left
                  rw [hvalue] at hwrap hchecked
                  exact (readPieces_of_strict hsuits hchecked rfl).trans
                    (readPieces_of_strict hsuits hwrap rfl).symm
              | some v =>
                  rw [hvalue] at hwrap hchecked
                  rw [readPieces_of_value hsuits hwrap, readPieces_of_value hsuits hchecked]
                  rcases ih (index + 1) with hsame | ⟨i, d, hd, hout, hread⟩
                  · left
                    rw [hsame]
                  · right
                    refine ⟨i + 1, d, hd, hout, ?_⟩
                    rw [hread, Nat.add_right_comm, Nat.add_assoc]
                    rfl

/-- Unless every kind suits its type, the lenient runs end for the same
cause, whatever they have left out by then. -/
theorem suits_or_lenient_mismatch (mode : HexReading) (entries : List Entry) :
    (∀ e ∈ entries, e.2.1.suits e.2.2 = true) ∨
      ∃ cause, ∀ narrowing, ∃ log,
        readPieces ⟨.lenient, mode, narrowing⟩ 0 entries = .ok ⟨log, .mismatch cause⟩ := by
  rcases suits_or_mismatch_of_lenient entries with hsuits | ⟨cause, hread⟩
  · exact .inl hsuits
  · exact .inr ⟨cause, fun narrowing => hread ⟨.lenient, mode, narrowing⟩ rfl⟩

/-- Where no entry is out of range, the runs are the same. -/
theorem readPieces_checked_of_inRange {entries : List Entry}
    (h : ∀ e ∈ entries, e.outOfRange mode = false) (policy : Policy) (index : Nat) :
    readPieces ⟨policy, mode, .checked⟩ index entries
      = readPieces ⟨policy, mode, .wrap⟩ index entries := by
  apply readPieces_congr
  · rfl
  · intro e he
    exact ⟨Entry.value?_checked_of_inRange policy (h e he), fun _ => rfl⟩

-- ============================================================= patterns

namespace Pattern

/-- The entry at an index is out of range. -/
def outOfRange (p : Pattern) (mode : HexReading) (pieces : List (List Char)) (i : Nat) : Bool :=
  (p.entries pieces)[i]?.any (Entry.outOfRange mode)

theorem value?_checked (p : Pattern) (policy : Policy) (mode : HexReading)
    (pieces : List (List Char)) (i : Nat) :
    p.value? ⟨policy, mode, .checked⟩ pieces i =
      if p.outOfRange mode pieces i then none else p.value? ⟨policy, mode, .wrap⟩ pieces i := by
  unfold value? outOfRange
  cases (p.entries pieces)[i]? with
  | none => rfl
  | some e => exact Entry.value?_checked policy mode e

variable {p : Pattern} {t : Text} {pieces : List (List Char)}

/-- If no kind fails its type, the lenient runs match with the values at
their positions, the checked one without those out of range. -/
theorem exists_values_of_suits (hpieces : t.pieces p.tokens = .ok pieces)
    (hshape : p.kinds.length = p.shape.length)
    (hsuits : ∀ e ∈ p.entries pieces, e.2.1.suits e.2.2 = true) (mode : HexReading) :
    ∃ positions values wlog clog,
      positions = (List.range p.shape.length).filter (fun i =>
        (p.value? ⟨.lenient, mode, .wrap⟩ pieces i).isSome) ∧
      List.Forall₂ (fun i v => p.value? ⟨.lenient, mode, .wrap⟩ pieces i = some v)
        positions values ∧
      readPieces ⟨.lenient, mode, .wrap⟩ 0 (p.entries pieces) = .ok ⟨wlog, .matched values⟩ ∧
      readPieces ⟨.lenient, mode, .checked⟩ 0 (p.entries pieces) = .ok ⟨clog, .matched
        (((positions.zip values).filter fun e => !p.outOfRange mode pieces e.1).map Prod.snd)⟩ :=
  exists_values_of_removed rfl rfl hpieces hshape hsuits (p.value?_checked .lenient mode pieces)

/-- Without 32-bit types no entry is out of range. -/
theorem inRange_of_shape (hpieces : t.pieces p.tokens = .ok pieces)
    (hshape : p.kinds.length = p.shape.length)
    (htargets : ∀ target ∈ p.shape, target ≠ .int32 ∧ target ≠ .uint32) (mode : HexReading) :
    ∀ e ∈ p.entries pieces, e.outOfRange mode = false := by
  intro e he
  have htarget : e.2.2 ∈ p.shape := by
    rw [← map_target_entries hpieces hshape]
    exact List.mem_map_of_mem he
  rw [Bool.eq_false_iff]
  intro hrange
  rcases Entry.target_of_outOfRange hrange with h | h
  · exact (htargets _ htarget).1 h
  · exact (htargets _ htarget).2 h

/-- Checked narrowing gives what wrapping gives, but for what is out of
range. A strict run is the same, or is rejected at an entry out of range.
A lenient run is rejected for the same cause, or matches with the same
values other than those at positions out of range. A pattern without
32-bit types has the same runs. -/
theorem checked_refines_wrap (p : Pattern) (t : Text) (mode : HexReading) :
    (∃ wrap checked,
      p.report ⟨.strict, mode, .wrap⟩ t = .ok wrap ∧
      p.report ⟨.strict, mode, .checked⟩ t = .ok checked ∧
      (checked = wrap ∨ ∃ pieces index e,
        t.pieces p.tokens = .ok pieces ∧ (p.entries pieces)[index]? = some e ∧
        e.outOfRange mode = true ∧ (Mismatch.unfit index e.1 e.2.2).reason = .narrowing ∧
        checked.outcome = .mismatch (.unfit index e.1 e.2.2))) ∧
    (∃ wrap checked,
      p.report ⟨.lenient, mode, .wrap⟩ t = .ok wrap ∧
      p.report ⟨.lenient, mode, .checked⟩ t = .ok checked ∧
      ((∃ cause, wrap.outcome = .mismatch cause ∧ checked.outcome = .mismatch cause) ∨
        ∃ pieces positions values, t.pieces p.tokens = .ok pieces ∧
          positions = (List.range p.shape.length).filter (fun i =>
            (p.value? ⟨.lenient, mode, .wrap⟩ pieces i).isSome) ∧
          List.Forall₂ (fun i v => p.value? ⟨.lenient, mode, .wrap⟩ pieces i = some v)
            positions values ∧
          wrap.outcome = .matched values ∧
          checked.outcome = .matched (((positions.zip values).filter fun e =>
            !p.outOfRange mode pieces e.1).map Prod.snd))) ∧
    ((∀ target ∈ p.shape, target ≠ .int32 ∧ target ≠ .uint32) → ∀ policy,
      p.report ⟨policy, mode, .checked⟩ t = p.report ⟨policy, mode, .wrap⟩ t) := by
  rcases report_cases p t with ⟨cause, hreport⟩ | ⟨pieces, hpieces, hshape, hreport⟩
  · refine ⟨⟨_, _, hreport _, hreport _, .inl rfl⟩,
      ⟨_, _, hreport _, hreport _, .inl ⟨cause, rfl, rfl⟩⟩, fun _ policy => ?_⟩
    rw [hreport, hreport]
  have hok : ∀ {options r}, readPieces options 0 (p.entries pieces) = .ok r →
      p.report options t = .ok (p.closed t r) := fun hread => by
    rw [hreport, hread]
    rfl
  refine ⟨?_, ?_, fun htargets policy => ?_⟩
  · obtain ⟨wrap, hwrap⟩ := exists_readPieces_eq_ok ⟨.strict, mode, .wrap⟩ 0 (p.entries pieces)
    rcases readPieces_checked_strict mode 0 (p.entries pieces) with
      hsame | ⟨i, e, he, hrange, hchecked⟩
    · exact ⟨_, _, hok hwrap, hok (hsame.trans hwrap), .inl rfl⟩
    · rw [Nat.zero_add] at hchecked
      exact ⟨_, _, hok hwrap, hok hchecked,
        .inr ⟨pieces, i, e, hpieces, he, hrange, Entry.reason_of_outOfRange hrange i, rfl⟩⟩
  · rcases suits_or_lenient_mismatch mode (p.entries pieces) with hsuits | ⟨cause, hread⟩
    · obtain ⟨positions, values, wlog, clog, hpositions, hbeside, hwrap, hchecked⟩ :=
        exists_values_of_suits hpieces hshape hsuits mode
      exact ⟨_, _, hok hwrap, hok hchecked,
        .inr ⟨pieces, positions, values, hpieces, hpositions, hbeside, rfl, rfl⟩⟩
    · obtain ⟨wlog, hwrap⟩ := hread .wrap
      obtain ⟨clog, hchecked⟩ := hread .checked
      exact ⟨_, _, hok hwrap, hok hchecked, .inl ⟨cause, rfl, rfl⟩⟩
  · rw [hreport, hreport,
      readPieces_checked_of_inRange (inRange_of_shape hpieces hshape htargets mode)]

-- the text is left out in both runs, the number behind it in the checked one alone
example :
    let p : Pattern := ⟨[], [.placeholder .int, .literal [','], .placeholder .int, .literal [','],
      .placeholder .int], [.int32, .uint32, .uint32]⟩
    let t : Text := Text.ofChars ['x', ',', '-', '1', ',', '7']
    p.report ⟨.lenient, .legacy, .wrap⟩ t = .ok
      ⟨[.dropped (.undecodable 0 ['x'] .int)], .matched [.int 0xFFFFFFFF, .int 7]⟩ ∧
    p.report ⟨.lenient, .legacy, .checked⟩ t = .ok
      ⟨[.dropped (.undecodable 0 ['x'] .int), .dropped (.unfit 1 ['-', '1'] .uint32)],
        .matched [.int 7]⟩ :=
  ⟨rfl, rfl⟩

end Pattern

end Unformat
