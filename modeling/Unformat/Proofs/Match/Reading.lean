/-
Reading the pieces of a cut text. What a placeholder reads is fitted to
its type without overflow: every integer that is ever read lies in the
64-bit range (`fitsInt64_of_read?`), and each of those has a nearest
floating-point number. So a piece with its kind and type (`Entry`) yields
a value (`Entry.value?`) or there is one cause for its missing
(`Entry.cause`), and a match always has an outcome
(`Pattern.exists_report_eq_ok`).

What becomes of an entry is said by one lemma for each of the four ways:

- the kind does not suit the type, which ends the match;
- there is a value, which goes in front of the others;
- there is none, which ends the match under the strict policy;
- there is none, which is told and forgotten under the lenient one.

Under any policy values come out in the end only if no entry goes the
first way (`suits_of_matched`).
-/
import Unformat.Match.Report
import Unformat.Proofs.Cut.Pieces
import Unformat.Proofs.Number.Rounding

namespace Unformat

-- ==================================================== values and types

/-- Every integer that is read lies in the 64-bit range. -/
theorem fitsInt64_of_read? {kind : Kind} {mode : HexReading} {t : Text} {n : Int}
    (h : kind.read? mode t = some (.int n)) : fitsInt64 n = true := by
  cases kind with
  | string => simp [Kind.read?] at h
  | char => simp [Kind.read?] at h
  | bool =>
      obtain ⟨b, -, hb⟩ := Option.map_eq_some_iff.mp h
      cases hb
  | decimal =>
      obtain ⟨d, -, hd⟩ := Option.map_eq_some_iff.mp h
      cases hd
  | int =>
      obtain ⟨m, hm, hmn⟩ := Option.map_eq_some_iff.mp h
      obtain rfl := Value.int.inj hmn
      obtain ⟨cs, -, hread⟩ := Option.bind_eq_some_iff.mp hm
      exact fitsInt64_of_readInt64? hread
  | hex =>
      obtain ⟨m, hm, hmn⟩ := Option.map_eq_some_iff.mp h
      obtain rfl := Value.int.inj hmn
      obtain ⟨cs, -, hread⟩ := Option.bind_eq_some_iff.mp hm
      cases mode with
      | legacy => exact fitsInt64_of_readInt64? hread
      | base16 =>
          obtain ⟨word, hword, rfl⟩ := Option.map_eq_some_iff.mp hread
          exact fitsInt64_ofWord64 (readWord64?_lt hword)

/-- Only an integer beyond the 64-bit range can overflow. -/
theorem exists_fit_eq_ok {v : Value} (h : ∀ n, v = .int n → fitsInt64 n = true)
    (target : ElementType) (narrowing : Narrowing) :
    ∃ r, v.fit target narrowing = .ok r := by
  cases v with
  | int n =>
      cases target with
      | float =>
          obtain ⟨x, hx⟩ := Binary64.exists_ofInt?_eq_some (h n rfl)
          exact ⟨some (.float x), by simp only [Value.fit, hx]⟩
      | _ => exact ⟨_, rfl⟩
  | _ => cases target <;> exact ⟨_, rfl⟩

-- ============================================================= entries

/-- A piece with the kind of its placeholder and the type of its
element. -/
abbrev Entry := List Char × Kind × ElementType

namespace Entry

/-- The value of an entry: what the kind reads, fitted to the type. -/
def value? (options : Settings) : Entry → Option Value
  | (piece, kind, target) =>
      (kind.read? options.hexMode (Text.ofChars piece)).bind fun u =>
        (u.fit target options.narrowing).toOption.join

/-- Why an entry yields no value, if it yields none. -/
def cause (options : Settings) (index : Nat) : Entry → Mismatch
  | (piece, kind, target) =>
      if (kind.read? options.hexMode (Text.ofChars piece)).isSome then .unfit index piece target
      else .undecodable index piece kind

variable {options : Settings} {e : Entry} {v : Value}

theorem value?_eq_some_iff {piece : List Char} {kind : Kind} {target : ElementType} :
    value? options (piece, kind, target) = some v ↔
      ∃ u, kind.read? options.hexMode (Text.ofChars piece) = some u ∧
        u.fit target options.narrowing = .ok (some v) := by
  simp only [value?, Option.bind_eq_some_iff, Option.join_eq_some_iff]
  refine exists_congr fun u => and_congr_right fun _ => ?_
  cases u.fit target options.narrowing <;> simp [Except.toOption]

/-- Reading a piece gives the value of its entry, or the cause. -/
theorem readPiece_eq (options : Settings) (index : Nat) (e : Entry) :
    readPiece options index e.1 e.2.1 e.2.2 =
      .ok (match e.value? options with
        | some v => .ok v
        | none => .error (e.cause options index)) := by
  obtain ⟨piece, kind, target⟩ := e
  simp only [readPiece, value?, cause]
  cases hread : kind.read? options.hexMode (Text.ofChars piece) with
  | none => rfl
  | some u =>
      have hrange : ∀ n, u = .int n → fitsInt64 n = true := by
        rintro n rfl
        exact fitsInt64_of_read? hread
      obtain ⟨r, hr⟩ := exists_fit_eq_ok hrange target options.narrowing
      simp only [Option.bind_some, hr]
      cases r <;> rfl

end Entry

theorem exists_readPiece_eq_ok (options : Settings) (index : Nat) (piece : List Char) (kind : Kind)
    (target : ElementType) : ∃ r, readPiece options index piece kind target = .ok r :=
  ⟨_, Entry.readPiece_eq options index (piece, kind, target)⟩

-- ======================================================= single entries

section Reading

variable {options : Settings} {index : Nat} {piece : List Char} {kind : Kind}
  {target : ElementType} {entries : List Entry}

theorem readPieces_of_misfit (h : kind.suits target = false) :
    readPieces options index ((piece, kind, target) :: entries)
      = .ok ⟨[], .mismatch (.misfit index kind target)⟩ := by
  simp [readPieces, h]

theorem readPieces_of_value {v : Value} (h : kind.suits target = true)
    (hread : readPiece options index piece kind target = .ok (.ok v)) :
    readPieces options index ((piece, kind, target) :: entries)
      = (readPieces options (index + 1) entries).map (Report.consValue v) := by
  simp [readPieces, h, hread]

theorem readPieces_of_strict {cause : Mismatch} (h : kind.suits target = true)
    (hread : readPiece options index piece kind target = .ok (.error cause))
    (hpolicy : options.policy = .strict) :
    readPieces options index ((piece, kind, target) :: entries)
      = .ok ⟨[], .mismatch cause⟩ := by
  simp [readPieces, h, hread, hpolicy]

theorem readPieces_of_lenient {cause : Mismatch} (h : kind.suits target = true)
    (hread : readPiece options index piece kind target = .ok (.error cause))
    (hpolicy : options.policy = .lenient) :
    readPieces options index ((piece, kind, target) :: entries)
      = (readPieces options (index + 1) entries).map (Report.consEvent (.dropped cause)) := by
  simp [readPieces, h, hread, hpolicy]

-- ========================================================== all entries

/-- Reading never overflows. -/
theorem exists_readPieces_eq_ok (options : Settings) (index : Nat)
    (entries : List Entry) :
    ∃ r, readPieces options index entries = .ok r := by
  induction entries generalizing index with
  | nil => exact ⟨_, rfl⟩
  | cons e entries ih =>
      obtain ⟨piece, kind, target⟩ := e
      obtain ⟨rest, hrest⟩ := ih (index + 1)
      cases hsuits : kind.suits target with
      | false => exact ⟨_, readPieces_of_misfit hsuits⟩
      | true =>
          obtain ⟨r, hread⟩ := exists_readPiece_eq_ok options index piece kind target
          cases r with
          | ok v =>
              rw [readPieces_of_value hsuits hread, hrest]
              exact ⟨_, rfl⟩
          | error cause =>
              cases hpolicy : options.policy with
              | strict => exact ⟨_, readPieces_of_strict hsuits hread hpolicy⟩
              | lenient =>
                  rw [readPieces_of_lenient hsuits hread hpolicy, hrest]
                  exact ⟨_, rfl⟩

/-- Values come out with a further one in front only if they come out
without it. -/
theorem consValue_eq_matched_iff {v : Value} {r : Report} {log : List Event}
    {values : List Value} :
    r.consValue v = ⟨log, .matched values⟩ ↔
      ∃ rest, r = ⟨log, .matched rest⟩ ∧ values = v :: rest := by
  obtain ⟨log', outcome⟩ := r
  cases outcome with
  | matched rest =>
      simp only [Report.consValue, Report.mk.injEq, Outcome.matched.injEq]
      constructor
      · intro h
        obtain ⟨rfl, rfl⟩ := h
        exact ⟨rest, ⟨rfl, rfl⟩, rfl⟩
      · intro h
        obtain ⟨rest', ⟨rfl, rfl⟩, rfl⟩ := h
        exact ⟨rfl, rfl⟩
  | mismatch cause => simp [Report.consValue]

/-- Values come out only if every kind suits its type. -/
theorem suits_of_matched {log : List Event} {values : List Value}
    (h : readPieces options index entries = .ok ⟨log, .matched values⟩) :
    ∀ e ∈ entries, e.2.1.suits e.2.2 = true := by
  induction entries generalizing index log values with
  | nil => exact fun e he => absurd he List.not_mem_nil
  | cons e entries ih =>
      obtain ⟨piece, kind, target⟩ := e
      cases hsuits : kind.suits target with
      | false =>
          rw [readPieces_of_misfit hsuits] at h
          cases Except.ok.inj h
      | true =>
          refine List.forall_mem_cons.mpr ⟨hsuits, ?_⟩
          obtain ⟨r, hread⟩ := exists_readPiece_eq_ok options index piece kind target
          cases r with
          | ok v =>
              rw [readPieces_of_value hsuits hread] at h
              obtain ⟨r, hr, hcons⟩ := map_eq_ok_iff.mp h
              obtain ⟨rest, rfl, -⟩ := consValue_eq_matched_iff.mp hcons
              exact ih hr
          | error cause =>
              cases hpolicy : options.policy with
              | strict =>
                  rw [readPieces_of_strict hsuits hread hpolicy] at h
                  cases Except.ok.inj h
              | lenient =>
                  rw [readPieces_of_lenient hsuits hread hpolicy] at h
                  obtain ⟨⟨log', outcome⟩, hr, hcons⟩ := map_eq_ok_iff.mp h
                  -- a dropped value is told of, but the outcome is that of the rest
                  obtain rfl : outcome = .matched values := congrArg Report.outcome hcons
                  exact ih hr

end Reading

-- ============================================================= matches

namespace Pattern

variable {p : Pattern} {options : Settings} {t : Text} {log : List Event} {values : List Value}

theorem firstMisfit?_eq_none_iff (index : Nat) (kinds : List Kind) (shape : List ElementType) :
    firstMisfit? index kinds shape = none ↔ ∀ e ∈ kinds.zip shape, e.1.suits e.2 = true := by
  induction kinds generalizing index shape with
  | nil => simp [firstMisfit?]
  | cons kind kinds ih =>
      cases shape with
      | nil => simp [firstMisfit?]
      | cons target shape =>
          rw [List.zip_cons_cons, List.forall_mem_cons, ← ih (index + 1) shape]
          cases hsuits : kind.suits target with
          | false => simp [firstMisfit?, hsuits]
          | true => simp [firstMisfit?, hsuits]

/-- A directive that has tokens and entries that have types make a
pattern. -/
theorem ofDirective_eq_ok_iff {directive : Text} {given : List ShapeEntry} :
    ofDirective directive given = .ok p ↔
      p.directive = directive ∧ Directive.tokens directive = .ok p.tokens ∧
        Shape.ofEntries given = .ok p.shape := by
  obtain ⟨directive', tokens, shape⟩ := p
  simp only [ofDirective, bind_eq_ok_iff, mapError_eq_ok_iff]
  constructor
  · rintro ⟨ts, htokens, types, hshape, h⟩
    cases h
    exact ⟨rfl, htokens, hshape⟩
  · rintro ⟨rfl, htokens, hshape⟩
    exact ⟨tokens, htokens, shape, hshape, rfl⟩

/-- They make none for want of an encoding if the directive has no
tokens. -/
theorem ofDirective_eq_error_encoding_iff {directive : Text} {given : List ShapeEntry}
    {fault : EncodingFault} :
    ofDirective directive given = .error (.encoding fault) ↔
      Directive.tokens directive = .error fault := by
  simp only [ofDirective, bind_eq_error_iff, mapError_eq_error_iff]
  constructor
  · rintro (⟨_, htokens, hfault⟩ | ⟨_, -, ⟨_, -, hfault⟩ | ⟨_, -, hmade⟩⟩)
    · cases hfault
      exact htokens
    · cases hfault
    · cases hmade
  · intro htokens
    exact Or.inl ⟨fault, htokens, rfl⟩

/-- A pattern passes its check if there is one type for each placeholder
and the kind suits it. -/
theorem check_eq_ok_iff :
    p.check = .ok () ↔
      p.kinds.length = p.shape.length ∧ ∀ e ∈ p.kinds.zip p.shape, e.1.suits e.2 = true := by
  unfold check
  by_cases hlength : p.kinds.length = p.shape.length
  · rw [if_neg (not_not_intro hlength), ← firstMisfit?_eq_none_iff 0]
    cases firstMisfit? 0 p.kinds p.shape with
    | none => simp [hlength]
    | some e => simp
  · rw [if_pos hlength]
    simp [hlength]

/-- The pieces of a text with the kinds and types of a pattern. -/
def entries (p : Pattern) (pieces : List (List Char)) : List Entry :=
  pieces.zip (p.kinds.zip p.shape)

/-- A text that is not cut does not match, for the same cause. -/
theorem report_of_not_cut {cause : Mismatch} (hpieces : t.pieces p.tokens = .error cause)
    (options : Settings) : p.report options t = .ok (p.closed t ⟨[], .mismatch cause⟩) := by
  unfold report read
  rw [hpieces]
  rfl

/-- Nothing is read where there are not as many types as placeholders. -/
theorem report_of_unequal_lengths (h : p.kinds.length ≠ p.shape.length)
    {pieces : List (List Char)} (hpieces : t.pieces p.tokens = .ok pieces) (options : Settings) :
    p.report options t = .ok (p.closed t
      ⟨[], .mismatch (.count pieces.length p.kinds.length p.shape.length)⟩) := by
  unfold report read
  simp only [hpieces, h, and_false, if_false]
  rfl

/-- The pieces are read where there are as many types as placeholders,
since there are always as many pieces. -/
theorem report_of_equal_lengths (h : p.kinds.length = p.shape.length)
    {pieces : List (List Char)} (hpieces : t.pieces p.tokens = .ok pieces) (options : Settings) :
    p.report options t = (readPieces options 0 (p.entries pieces)).map (p.closed t) := by
  have hlength : pieces.length = p.kinds.length := Text.length_of_pieces_eq_ok hpieces
  unfold report read
  simp only [hpieces, hlength, h, and_self, if_true]
  rfl

/-- Either a text is rejected before anything is read, whatever the
options, or its pieces are read. -/
theorem report_cases (p : Pattern) (t : Text) :
    (∃ cause, ∀ options, p.report options t = .ok (p.closed t ⟨[], .mismatch cause⟩)) ∨
      ∃ pieces, t.pieces p.tokens = .ok pieces ∧ p.kinds.length = p.shape.length ∧
        ∀ options, p.report options t =
          (readPieces options 0 (p.entries pieces)).map (p.closed t) := by
  cases hpieces : t.pieces p.tokens with
  | error cause => exact .inl ⟨cause, report_of_not_cut hpieces⟩
  | ok pieces =>
      by_cases hlength : p.kinds.length = p.shape.length
      · exact .inr ⟨pieces, rfl, hlength, report_of_equal_lengths hlength hpieces⟩
      · exact .inl ⟨_, report_of_unequal_lengths hlength hpieces⟩

/-- A match always has an outcome. -/
theorem exists_report_eq_ok (p : Pattern) (options : Settings) (t : Text) :
    ∃ r, p.report options t = .ok r := by
  rcases report_cases p t with ⟨cause, hreport⟩ | ⟨pieces, -, -, hreport⟩
  · exact ⟨_, hreport options⟩
  · obtain ⟨r, hread⟩ := exists_readPieces_eq_ok options 0 (p.entries pieces)
    exact ⟨p.closed t r, by rw [hreport, hread]; rfl⟩

/-- What is told at the end leaves the outcome as it is. -/
theorem outcome_closed (p : Pattern) (t : Text) (r : Report) :
    (p.closed t r).outcome = r.outcome := by
  obtain ⟨log, outcome⟩ := r
  cases outcome with
  | matched values => rfl
  | mismatch cause => rfl

/-- Only rejections are told at the end. -/
theorem closed_eq_matched_iff {r : Report} :
    p.closed t r = ⟨log, .matched values⟩ ↔ r = ⟨log, .matched values⟩ := by
  obtain ⟨log', outcome⟩ := r
  cases outcome with
  | matched values' => exact Iff.rfl
  | mismatch cause => simp [closed]

/-- Values come out of a text that has pieces, one for each type, if they
come out of the pieces. -/
theorem report_eq_matched_iff :
    p.report options t = .ok ⟨log, .matched values⟩ ↔
      ∃ pieces, t.pieces p.tokens = .ok pieces ∧ p.kinds.length = p.shape.length ∧
        readPieces options 0 (pieces.zip (p.kinds.zip p.shape)) = .ok ⟨log, .matched values⟩ := by
  cases hpieces : t.pieces p.tokens with
  | error cause =>
      rw [report_of_not_cut hpieces]
      simp [closed_eq_matched_iff]
  | ok pieces =>
      by_cases hlength : p.kinds.length = p.shape.length
      · rw [report_of_equal_lengths hlength hpieces, map_eq_ok_iff]
        simp [closed_eq_matched_iff, hlength, entries]
      · rw [report_of_unequal_lengths hlength hpieces]
        simp [closed_eq_matched_iff, hlength]

end Pattern

end Unformat
