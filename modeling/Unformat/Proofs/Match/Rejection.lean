/-
For which causes texts are rejected by a pattern that passes its check.

Such a pattern rejects a text that is not cut, and then the cause has
its grounds in the tokens (`Text.grounds_of_pieces`). Once a text is cut,
it is rejected only under the strict policy, and for the first
placeholder without a value (`Pattern.mismatch_of_check`). So the pattern
has nothing to say of its shape any more (`Pattern.reason_of_check`), and
most of the other reasons are open only to some patterns or under some
options (`Pattern.rejection_grounds`). Two are not: a literal can always
be missing from a text, and a piece can always be one that its kind does
not read, though only the strict policy rejects a text for that.
-/
import Unformat.Proofs.Cut.Cause
import Unformat.Proofs.Match.Narrowing

namespace Unformat

namespace Pattern

variable {p : Pattern} {options : Settings} {t : Text} {r : Report} {cause : Mismatch}

/-- A pattern that passes its check rejects a text that is not cut, and
under the strict policy one with a placeholder without a value. -/
theorem mismatch_of_check (hcheck : p.check = .ok ()) (hreport : p.report options t = .ok r)
    (hcause : r.outcome = .mismatch cause) :
    t.pieces p.tokens = .error cause ∨
      ∃ (pieces : List (List Char)) (index : Nat) (e : Entry),
        t.pieces p.tokens = .ok pieces ∧ options.policy = .strict ∧
        (p.entries pieces)[index]? = some e ∧ e.value? options = none ∧
        cause = e.cause options index := by
  cases hpieces : t.pieces p.tokens with
  | error cutCause =>
      rw [report_of_not_cut hpieces] at hreport
      obtain rfl := Except.ok.inj hreport
      rw [outcome_closed] at hcause
      exact .inl (congrArg Except.error (Outcome.mismatch.inj hcause))
  | ok pieces =>
      have hsuits := suits_of_check hcheck pieces
      rw [report_of_equal_lengths (check_eq_ok_iff.mp hcheck).1 hpieces] at hreport
      obtain ⟨read, hread, rfl⟩ := map_eq_ok_iff.mp hreport
      rw [outcome_closed] at hcause
      refine .inr ⟨pieces, ?_⟩
      cases hpolicy : options.policy with
      | lenient =>
          rw [readPieces_lenient hpolicy 0 hsuits] at hread
          obtain rfl := Except.ok.inj hread
          cases hcause
      | strict =>
          rcases values_or_first_none options (p.entries pieces) with
            hall | ⟨front, e, back, hentries, hnone, hfront⟩
          · rw [readPieces_strict 0 hsuits hall] at hread
            obtain rfl := Except.ok.inj hread
            cases hcause
          · rw [hentries] at hsuits hread ⊢
            rw [List.forall_mem_append, List.forall_mem_cons] at hsuits
            rw [readPieces_strict_append hpolicy 0 hsuits.1 hfront hsuits.2.1 hnone,
              Nat.zero_add] at hread
            obtain rfl := Except.ok.inj hread
            refine ⟨front.length, e, rfl, rfl, ?_, hnone, (Outcome.mismatch.inj hcause).symm⟩
            rw [List.getElem?_append_right (Nat.le_refl _), Nat.sub_self]
            rfl

/-- A pattern that passes its check never rejects a text for its shape,
and for the number of values only where two placeholders are not
separated. -/
theorem reason_of_check (hcheck : p.check = .ok ()) (hreport : p.report options t = .ok r)
    (hcause : r.outcome = .mismatch cause) :
    cause.reason ≠ .shape ∧ (cause.reason = .arity → ∃ i, cause = .unseparated i) := by
  rcases mismatch_of_check hcheck hreport hcause with
    hcut | ⟨pieces, index, e, -, -, -, -, rfl⟩
  · rcases Text.grounds_of_pieces hcut with ⟨rfl, -⟩ | hgrounds
    · exact ⟨by decide, fun harity => by cases harity⟩
    · constructor
      · intro hshape
        simpa [hshape] using hgrounds.reason_mem
      · intro harity
        obtain ⟨front, -, -, -, -, hcause⟩ := hgrounds.of_arity harity
        exact ⟨_, hcause⟩
  · rcases e.reason_cause options index with hreason | hreason <;> simp [hreason]

/-- Every match with a pattern that passes its check has an outcome, and
a rejection tells of the tokens, the options or the text:

- it is never for the shape;
- for the number of values only where two placeholders stand side by
  side;
- for text in front of a literal only where no placeholder stands there;
- for an empty value only at a placeholder with a literal behind it;
- for what is left in the end only if the last token is no placeholder;
- for narrowing only under the strict policy and if narrowing is checked,
  at a placeholder with an integer out of the range of its type;
- for a value that cannot be read, under the lenient policy, only if a
  half of a surrogate pair stands alone in the text. -/
theorem rejection_grounds (hcheck : p.check = .ok ()) (options : Settings) (t : Text) :
    ∃ r, p.report options t = .ok r ∧ ∀ cause, r.outcome = .mismatch cause →
      cause.reason ≠ .shape ∧
      (cause.reason = .arity → ∃ front kind kind' back,
        p.tokens = front ++ .placeholder kind :: .placeholder kind' :: back ∧
        cause = .unseparated (front.filterMap Token.kind?).length) ∧
      (cause.reason = .unexpectedText → ∃ front literal back,
        p.tokens = front ++ .literal literal :: back ∧ ¬ EndsOpen front ∧
        ∃ gap, cause = .unexpectedText gap literal) ∧
      (cause.reason = .emptyValue → ∃ front kind literal back,
        p.tokens = front ++ .placeholder kind :: .literal literal :: back ∧
        cause = .emptyValue (front.filterMap Token.kind?).length literal) ∧
      (cause.reason = .trailingInput → ¬ EndsOpen p.tokens) ∧
      (cause.reason = .narrowing → options.policy = .strict ∧ options.narrowing = .checked ∧
        ∃ pieces index e, t.pieces p.tokens = .ok pieces ∧ (p.entries pieces)[index]? = some e ∧
          e.outOfRange options.hexMode = true ∧ cause = .unfit index e.1 e.2.2) ∧
      (cause.reason = .decode → options.policy = .lenient → ∃ half, CodePoint.lone half ∈ t) := by
  obtain ⟨r, hreport⟩ := exists_report_eq_ok p options t
  refine ⟨r, hreport, fun cause hcause => ?_⟩
  refine ⟨(reason_of_check hcheck hreport hcause).1, ?_⟩
  rcases mismatch_of_check hcheck hreport hcause with
    hcut | ⟨pieces, index, e, hpieces, hstrict, he, hnone, rfl⟩
  · rcases Text.grounds_of_pieces hcut with ⟨rfl, hlone⟩ | hgrounds
    · exact ⟨nofun, nofun, nofun, nofun, nofun, fun _ _ => hlone⟩
    · refine ⟨hgrounds.of_arity, hgrounds.of_unexpectedText, hgrounds.of_emptyValue,
        hgrounds.of_trailingInput, fun hreason => ?_, fun hreason => ?_⟩
      · simpa [hreason] using hgrounds.reason_mem
      · simpa [hreason] using hgrounds.reason_mem
  · have hreason := e.reason_cause options index
    refine ⟨fun h => ?_, fun h => ?_, fun h => ?_, fun h => ?_, fun h => ?_, fun _ h => ?_⟩
    · simp [h] at hreason
    · simp [h] at hreason
    · simp [h] at hreason
    · simp [h] at hreason
    · obtain ⟨hchecked, hrange⟩ := Entry.outOfRange_of_narrowing hnone h
      exact ⟨hstrict, hchecked, pieces, index, e, hpieces, he, hrange,
        Entry.cause_of_outOfRange hrange index⟩
    · rw [hstrict] at h
      cases h

/-- Thirty-three bits are read in base sixteen, and are out of the range
of the type beside them. -/
theorem rejection_grounds_wide_hex :
    let p : Pattern := ⟨[], [.placeholder .int, .literal ['/'], .placeholder .hex],
      [.int32, .uint32]⟩
    let options : Settings := ⟨.strict, .base16, .checked⟩
    let t : Text := Text.ofChars ['5', '/', '1', 'f', 'f', 'f', 'f', 'f', 'f', 'f', 'f']
    let wide : List Char := ['1', 'f', 'f', 'f', 'f', 'f', 'f', 'f', 'f']
    p.check = .ok () ∧
      ∃ r, p.report options t = .ok r ∧ r.outcome = .mismatch (.unfit 1 wide .uint32) ∧
        ∃ pieces index e, t.pieces p.tokens = .ok pieces ∧ (p.entries pieces)[index]? = some e ∧
          e.outOfRange options.hexMode = true ∧
          Mismatch.unfit 1 wide .uint32 = .unfit index e.1 e.2.2 := by
  intro p options t wide
  have hcheck : p.check = .ok () := rfl
  obtain ⟨r, hreport, hgrounds⟩ := rejection_grounds hcheck options t
  have hcause : r.outcome = .mismatch (.unfit 1 wide .uint32) := by
    have hrun : p.report options t
        = .ok ⟨[.rejected t p.directive (.unfit 1 wide .uint32)],
            .mismatch (.unfit 1 wide .uint32)⟩ := rfl
    rw [hrun] at hreport
    obtain rfl := Except.ok.inj hreport
    rfl
  obtain ⟨-, -, -, -, -, hnarrowing, -⟩ := hgrounds _ hcause
  exact ⟨hcheck, r, hreport, hcause, (hnarrowing rfl).2.2⟩

end Pattern

end Unformat
