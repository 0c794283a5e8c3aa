/-
Which patterns ever match: those that pass the check, separate their
placeholders and have no empty literal behind one (`Pattern.live_iff`).

That nothing else matches is seen from any match. Its text was cut, and
a cut needs the last two conditions; its pieces were read, and values
come out of them only if there is one type for each placeholder and
every kind suits its type, whatever the options.

For the converse a text is put together from the literals and pieces
that end where they should. Nothing is known of what these pieces read
as, so the policy has to be the lenient one: a piece that reads as no
value is dropped, and how base sixteen is read and integers are
narrowed does not matter.
-/
import Unformat.Proofs.Cut.Assembled
import Unformat.Proofs.Match.Values

namespace Unformat

namespace Pattern

-- ============================================== statement vocabulary

/-- Values come out of a text. -/
def Matches (p : Pattern) (options : Settings) (t : Text) : Prop :=
  ∃ log values, p.report options t = .ok ⟨log, .matched values⟩

/-- A text is rejected. -/
def Mismatches (p : Pattern) (options : Settings) (t : Text) : Prop :=
  ∃ log cause, p.report options t = .ok ⟨log, .mismatch cause⟩

variable {p : Pattern} {options : Settings} {t : Text}

/-- A text that does not match is rejected; nothing else happens to
it. -/
theorem mismatches_of_not_matches (h : ¬ p.Matches options t) : p.Mismatches options t := by
  obtain ⟨⟨log, outcome⟩, hr⟩ := p.exists_report_eq_ok options t
  cases outcome with
  | matched values => exact absurd ⟨log, values, hr⟩ h
  | mismatch cause => exact ⟨log, cause, hr⟩

-- ==================================================== from a match on

/-- Only patterns that pass the check match. -/
theorem Matches.check_eq_ok (h : p.Matches options t) : p.check = .ok () := by
  obtain ⟨log, values, hr⟩ := h
  obtain ⟨pieces, hpieces, hlength, hread⟩ := report_eq_matched_iff.mp hr
  refine check_eq_ok_iff.mpr ⟨hlength, fun e he => ?_⟩
  have hcount : (p.kinds.zip p.shape).length ≤ pieces.length := by
    rw [Text.length_of_pieces_eq_ok hpieces, List.length_zip]
    exact Nat.min_le_left _ _
  rw [← List.map_snd_zip hcount] at he
  obtain ⟨entry, hentry, rfl⟩ := List.mem_map.mp he
  exact suits_of_matched hread entry hentry

/-- Only texts that are cut match. -/
theorem Matches.exists_isCut (h : p.Matches options t) :
    ∃ cs slices, IsCut p.tokens cs slices := by
  obtain ⟨log, values, hr⟩ := h
  obtain ⟨pieces, hpieces, -⟩ := report_eq_matched_iff.mp hr
  obtain ⟨cs, slices, -, hcut, -⟩ := Text.exists_isCut_of_pieces_eq_ok hpieces
  exact ⟨cs, slices, hcut⟩

-- ==================================================== to a match

/-- Under the lenient policy a text matches as soon as it has pieces. -/
theorem matches_of_pieces (hcheck : p.check = .ok ()) (hpolicy : options.policy = .lenient)
    {pieces : List (List Char)} (hpieces : t.pieces p.tokens = .ok pieces) :
    p.Matches options t := by
  obtain ⟨hlength, -⟩ := check_eq_ok_iff.mp hcheck
  obtain ⟨log, values, hread⟩ := exists_matched_of_suits hpolicy (suits_of_check hcheck pieces)
  exact ⟨log, values, report_eq_matched_iff.mpr ⟨pieces, hpieces, hlength, hread⟩⟩

/-- There is a text with pieces for all tokens that a cut allows. -/
theorem exists_pieces {tokens : List Token} (hsep : Separated tokens)
    (hempty : NoEmptyBehind tokens) :
    ∃ (t : Text) (pieces : List (List Char)), t.pieces tokens = .ok pieces := by
  obtain ⟨pieces, hlength, hdelim⟩ := exists_delimited hempty
  have hsame : List.Forall₂ SameUpToCase (tokens.filterMap Token.text?)
      (tokens.filterMap Token.text?) := List.forall₂_same.mpr fun l _ => SameUpToCase.refl l
  exact ⟨_, pieces, pieces_interleave hsame hlength hsep hdelim⟩

/-- The patterns that match some text under some options are those that
pass the check, separate their placeholders and have no empty literal
behind one. A pattern that does not pass the check rejects every text
under all options, and one that meets the three conditions has a text
that matches under the lenient policy whatever the other options. -/
theorem live_iff (p : Pattern) :
    ((∃ options t, p.Matches options t) ↔
      p.check = .ok () ∧ Separated p.tokens ∧ NoEmptyBehind p.tokens) ∧
    (p.check ≠ .ok () → ∀ options t, p.Mismatches options t) ∧
    (p.check = .ok () → Separated p.tokens → NoEmptyBehind p.tokens →
      ∃ t, ∀ hexMode narrowing, p.Matches ⟨.lenient, hexMode, narrowing⟩ t) := by
  have hlive : p.check = .ok () → Separated p.tokens → NoEmptyBehind p.tokens →
      ∃ t, ∀ hexMode narrowing, p.Matches ⟨.lenient, hexMode, narrowing⟩ t := by
    intro hcheck hsep hempty
    obtain ⟨t, pieces, hpieces⟩ := exists_pieces hsep hempty
    exact ⟨t, fun hexMode narrowing => matches_of_pieces hcheck rfl hpieces⟩
  refine ⟨⟨?_, ?_⟩, ?_, hlive⟩
  · intro h
    obtain ⟨options, t, hmatch⟩ := h
    obtain ⟨cs, slices, hcut⟩ := hmatch.exists_isCut
    exact ⟨hmatch.check_eq_ok, hcut.separated, hcut.noEmptyBehind⟩
  · intro h
    obtain ⟨hcheck, hsep, hempty⟩ := h
    obtain ⟨t, ht⟩ := hlive hcheck hsep hempty
    exact ⟨_, t, ht .legacy .wrap⟩
  · intro hcheck options t
    exact mismatches_of_not_matches fun hmatch => hcheck hmatch.check_eq_ok

end Pattern

end Unformat
