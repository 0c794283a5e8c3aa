/-
Letter case is not seen by a match. If two texts agree up to case, and the
tokens of two patterns do, then both texts are cut alike or neither is,
for one reason; and if the placeholders are all of numbers and the shapes
are the same, the values are the same, or there are none for one reason
(`Pattern.letter_case_unseen`).

The second part takes the pieces one at a time, as they are read. Two
pieces that agree up to case yield the same value
(`Entry.value?_eq_of_sameUpToCase`) or miss it for one reason
(`Entry.reason_eq_of_sameUpToCase`), so the two runs go the same of the
four ways of reading. Placeholders of other kinds are left out of it,
since a text is kept in the case in which it was written.
-/
import Unformat.Proofs.Cut.LetterCase
import Unformat.Proofs.Match.Reading
import Unformat.Proofs.Number.LetterCase

namespace Unformat

/-- Two outcomes that agree: the same values, or causes under one
reason. -/
inductive Outcome.Alike : Outcome → Outcome → Prop
  | matched (values : List Value) : Alike (.matched values) (.matched values)
  | mismatch {cause cause' : Mismatch} (hreason : cause.reason = cause'.reason) :
      Alike (.mismatch cause) (.mismatch cause')

-- ======================================================= single pieces

section Piece

variable {kind : Kind} {piece piece' : List Char}

/-- Pieces of a number that agree up to case yield the same value. -/
theorem Entry.value?_eq_of_sameUpToCase (hkind : kind = .int ∨ kind = .decimal ∨ kind = .hex)
    (hcase : SameUpToCase piece piece') (target : ElementType) (options : Settings) :
    Entry.value? options (piece, kind, target) = Entry.value? options (piece', kind, target) := by
  simp only [Entry.value?, Kind.read?_of_sameUpToCase hkind hcase]

/-- Pieces of a number that agree up to case yield no value for one
reason. -/
theorem Entry.reason_eq_of_sameUpToCase (hkind : kind = .int ∨ kind = .decimal ∨ kind = .hex)
    (hcase : SameUpToCase piece piece') (target : ElementType) (options : Settings)
    (index : Nat) :
    (Entry.cause options index (piece, kind, target)).reason =
      (Entry.cause options index (piece', kind, target)).reason := by
  simp only [Entry.cause, Kind.read?_of_sameUpToCase hkind hcase]
  split
  · rfl
  · rfl

end Piece

-- =========================================================== all pieces

theorem Outcome.Alike.consValue {r r' : Report} (h : r.outcome.Alike r'.outcome) (v : Value) :
    (r.consValue v).outcome.Alike (r'.consValue v).outcome := by
  obtain ⟨log, outcome⟩ := r
  obtain ⟨log', outcome'⟩ := r'
  cases h with
  | matched values => exact .matched (v :: values)
  | mismatch hreason => exact .mismatch hreason

/-- Pieces of numbers that agree up to case are read to the same end. -/
theorem readPieces_alike {pieces pieces' : List (List Char)} (options : Settings)
    (h : List.Forall₂ SameUpToCase pieces pieces') {targets : List (Kind × ElementType)}
    (hkinds : ∀ e ∈ targets, e.1 = .int ∨ e.1 = .decimal ∨ e.1 = .hex) (index : Nat) :
    ∃ r r', readPieces options index (pieces.zip targets) = .ok r ∧
      readPieces options index (pieces'.zip targets) = .ok r' ∧ r.outcome.Alike r'.outcome := by
  induction h generalizing targets index with
  | nil => exact ⟨_, _, rfl, rfl, .matched []⟩
  | @cons piece piece' pieces pieces' hcase _ ih =>
      match targets, hkinds with
      | [], _ => exact ⟨_, _, rfl, rfl, .matched []⟩
      | (kind, target) :: targets, hkinds =>
          obtain ⟨hkind, hkinds⟩ := List.forall_mem_cons.mp hkinds
          obtain ⟨r, r', hr, hr', halike⟩ := ih hkinds (index + 1)
          rw [List.zip_cons_cons, List.zip_cons_cons]
          have hread := Entry.readPiece_eq options index (piece, kind, target)
          have hread' := Entry.readPiece_eq options index (piece', kind, target)
          have hreason := Entry.reason_eq_of_sameUpToCase hkind hcase target options index
          rw [← Entry.value?_eq_of_sameUpToCase hkind hcase] at hread'
          cases hsuits : kind.suits target with
          | false =>
              exact ⟨_, _, readPieces_of_misfit hsuits, readPieces_of_misfit hsuits, .mismatch rfl⟩
          | true =>
              cases hv : Entry.value? options (piece, kind, target) with
              | some v =>
                  rw [hv] at hread hread'
                  rw [readPieces_of_value hsuits hread, readPieces_of_value hsuits hread', hr, hr']
                  exact ⟨_, _, rfl, rfl, halike.consValue v⟩
              | none =>
                  rw [hv] at hread hread'
                  cases hpolicy : options.policy with
                  | strict =>
                      exact ⟨_, _, readPieces_of_strict hsuits hread hpolicy,
                        readPieces_of_strict hsuits hread' hpolicy, .mismatch hreason⟩
                  | lenient =>
                      rw [readPieces_of_lenient hsuits hread hpolicy,
                        readPieces_of_lenient hsuits hread' hpolicy, hr, hr']
                      exact ⟨_, _, rfl, rfl, halike⟩

-- ============================================================== matches

namespace Pattern

variable {p p' : Pattern} {cs cs' : List Char}

/-- Texts that agree up to case match alike if the placeholders are of
numbers. -/
theorem report_alike (htokens : List.Forall₂ Token.Alike p.tokens p'.tokens)
    (hshape : p.shape = p'.shape) (hcase : SameUpToCase cs cs')
    (hkinds : ∀ kind ∈ p.kinds, kind = .int ∨ kind = .decimal ∨ kind = .hex)
    (options : Settings) :
    ∃ r r', p.report options (Text.ofChars cs) = .ok r ∧
      p'.report options (Text.ofChars cs') = .ok r' ∧ r.outcome.Alike r'.outcome := by
  have hkinds' : p.kinds = p'.kinds := kinds_eq_of_alike htokens
  rcases pieces_alike htokens hcase with
    ⟨slices, slices', -, -, hp, hp', -, hpieces⟩ | ⟨cause, cause', hp, hp', hreason⟩
  · by_cases hlength : p.kinds.length = p.shape.length
    · have hlength' : p'.kinds.length = p'.shape.length := by rw [← hkinds', ← hshape, hlength]
      have hnumbers : ∀ e ∈ p.kinds.zip p.shape, e.1 = .int ∨ e.1 = .decimal ∨ e.1 = .hex :=
        fun e he => hkinds e.1 (List.of_mem_zip he).1
      obtain ⟨r, r', hr, hr', halike⟩ := readPieces_alike options hpieces hnumbers 0
      refine ⟨p.closed (Text.ofChars cs) r, p'.closed (Text.ofChars cs') r', ?_, ?_, ?_⟩
      · rw [report_of_equal_lengths hlength hp options, entries, hr]
        rfl
      · rw [report_of_equal_lengths hlength' hp' options, entries, ← hkinds', ← hshape, hr']
        rfl
      · rw [outcome_closed, outcome_closed]
        exact halike
    · have hlength' : p'.kinds.length ≠ p'.shape.length := by rwa [← hkinds', ← hshape]
      refine ⟨_, _, report_of_unequal_lengths hlength hp options,
        report_of_unequal_lengths hlength' hp' options, ?_⟩
      rw [outcome_closed, outcome_closed]
      exact .mismatch rfl
  · refine ⟨_, _, report_of_not_cut hp options, report_of_not_cut hp' options, ?_⟩
    rw [outcome_closed, outcome_closed]
    exact .mismatch hreason

/-- If two texts agree up to case, and so do the tokens of two patterns of
one shape, then either both texts are cut, into slices that agree up to
case, so that the pieces of both have the same lengths and stand at the
same offsets, or neither is cut, for one reason. If moreover the
placeholders are of numbers, the texts match with the same values or they
do not match for one reason, whatever the options. -/
theorem letter_case_unseen (htokens : List.Forall₂ Token.Alike p.tokens p'.tokens)
    (hshape : p.shape = p'.shape) (hcase : SameUpToCase cs cs') :
    ((∃ slices slices', IsCut p.tokens cs slices ∧ IsCut p'.tokens cs' slices' ∧
        (Text.ofChars cs).pieces p.tokens = .ok (placeholderSlices p.tokens slices) ∧
        (Text.ofChars cs').pieces p'.tokens = .ok (placeholderSlices p'.tokens slices') ∧
        List.Forall₂ SameUpToCase slices slices' ∧
        slices.map List.length = slices'.map List.length ∧
        ∀ i, sliceStart slices i = sliceStart slices' i) ∨
      ∃ cause cause', (Text.ofChars cs).pieces p.tokens = .error cause ∧
        (Text.ofChars cs').pieces p'.tokens = .error cause' ∧ cause.reason = cause'.reason) ∧
    ((∀ kind ∈ p.kinds, kind = .int ∨ kind = .decimal ∨ kind = .hex) →
      ∀ options, ∃ r r', p.report options (Text.ofChars cs) = .ok r ∧
        p'.report options (Text.ofChars cs') = .ok r' ∧ r.outcome.Alike r'.outcome) := by
  constructor
  · rcases pieces_alike htokens hcase with
      ⟨slices, slices', hcut, hcut', hp, hp', hslices, -⟩ | hfails
    · have hlengths := map_length_eq_of_alike hslices
      exact .inl ⟨slices, slices', hcut, hcut', hp, hp', hslices, hlengths,
        sliceStart_eq_of_lengths hlengths⟩
    · exact .inr hfails
  · intro hkinds options
    exact report_alike htokens hshape hcase hkinds options

/-- The Kelvin sign is a `k`, the long s an `s` and the final sigma a
sigma, and an exponent and digits of base sixteen may be written in
either case. -/
theorem letter_case_unseen_kelvin :
    let p : Pattern := ⟨[], [.literal ['K', 's'], .placeholder .decimal, .literal ['σ'],
      .placeholder .hex], [.decimal, .int64]⟩
    let p' : Pattern := ⟨[], [.literal ['\u212A', 'ſ'], .placeholder .decimal, .literal ['ς'],
      .placeholder .hex], [.decimal, .int64]⟩
    let cs : List Char := ['k', 'S', '1', 'e', '2', 'Σ', '0', 'x', 'a', 'F']
    let cs' : List Char := ['K', 'ſ', '1', 'E', '2', 'ς', '0', 'X', 'A', 'f']
    let values : List Value := [.decimal ⟨false, 1, 2⟩, .int 0xAF]
    List.Forall₂ Token.Alike p.tokens p'.tokens ∧ SameUpToCase cs cs' ∧
      p.report ⟨.strict, .base16, .wrap⟩ (Text.ofChars cs) = .ok ⟨[], .matched values⟩ ∧
      (∃ slices slices', IsCut p.tokens cs slices ∧ IsCut p'.tokens cs' slices' ∧
        ∀ i, sliceStart slices i = sliceStart slices' i) ∧
      ∀ options, ∃ r r', p.report options (Text.ofChars cs) = .ok r ∧
        p'.report options (Text.ofChars cs') = .ok r' ∧ r.outcome.Alike r'.outcome := by
  intro p p' cs cs' values
  have htokens : List.Forall₂ Token.Alike p.tokens p'.tokens :=
    .cons (.literal (sameUpToCase_iff_foldAll_eq.mpr (by decide +kernel)))
      (.cons (.placeholder .decimal)
        (.cons (.literal (sameUpToCase_iff_foldAll_eq.mpr (by decide +kernel)))
          (.cons (.placeholder .hex) .nil)))
  have hcase : SameUpToCase cs cs' := sameUpToCase_iff_foldAll_eq.mpr (by decide +kernel)
  have hkinds : ∀ kind ∈ p.kinds, kind = .int ∨ kind = .decimal ∨ kind = .hex := by decide
  obtain ⟨hcut, hmatch⟩ := letter_case_unseen htokens rfl hcase
  refine ⟨htokens, hcase, by decide +kernel, ?_, hmatch hkinds⟩
  rcases hcut with ⟨slices, slices', h, h', -, -, -, -, hstarts⟩ | ⟨cause, -, hfails, -⟩
  · exact ⟨slices, slices', h, h', hstarts⟩
  · cases hfails

end Pattern

end Unformat
