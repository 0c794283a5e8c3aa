/-
A match never fails to have an outcome (`Pattern.report_total`). Each
step on the way that can fail is kept from failing by an earlier one:

- a text in which a half of a surrogate pair stands alone is rejected
  before it is cut;
- pieces, kinds and types are taken side by side only where there are
  equally many of them, and the pieces and kinds always are;
- fitting overflows for large integers alone, and what the readers hand
  over lies in the 64-bit range;
- a decimal beyond the limits is not read at all.

So a handler fails on a text only if it matches and its callback does.
-/
import Mathlib.Algebra.Group.Int.Defs
import Unformat.Proofs.Match.Reading
import Unformat.Proofs.Session.Calls

namespace Unformat

-- ============================================================= reading

/-- What a kind reads is fitted to every type without overflow. -/
theorem exists_fit_of_read? {kind : Kind} {mode : HexReading} {t : Text} {v : Value}
    (h : kind.read? mode t = some v) (target : ElementType) (narrowing : Narrowing) :
    ∃ r, v.fit target narrowing = .ok r := by
  refine exists_fit_eq_ok (fun n hn => ?_) target narrowing
  rw [hn] at h
  exact fitsInt64_of_read? h

/-- An integer of more than 1024 binary digits overflows. -/
theorem fit_float_of_large {n : Int} (h : 1024 ≤ n.natAbs.log2) (narrowing : Narrowing) :
    (Value.int n).fit .float narrowing = .error .intTooLarge := by
  simp only [Value.fit, Binary64.ofInt?_eq_none h]

/-- A decimal beyond the limits is not read. -/
theorem read?_decimal_of_beyond {cs : List Char} {d : Decimal}
    (hd : Decimal.readUnbounded? cs = some d)
    (hlimits : Decimal.maxAdjusted < d.adjusted ∨ d.exponent < Decimal.minExponent)
    (mode : HexReading) : Kind.decimal.read? mode (Text.ofChars cs) = none := by
  have hbeyond : d.withinLimits = false := by
    unfold Decimal.withinLimits
    rw [Bool.and_eq_false_iff, decide_eq_false_iff_not, decide_eq_false_iff_not, Int.not_le,
      Int.not_le]
    exact hlimits
  simp [Kind.read?, Decimal.read?, hd, hbeyond]

-- ============================================================ matching

theorem Handler.values?_eq_some_iff {h : Handler} {t : Text} {values : List Value} :
    h.values? t = some values ↔ ∃ log, h.report t = .ok ⟨log, .matched values⟩ := by
  unfold values?
  constructor
  · intro hvalues
    split at hvalues
    next log values' hreport => exact ⟨log, Option.some.inj hvalues ▸ hreport⟩
    · cases hvalues
  · intro hmatch
    obtain ⟨log, hreport⟩ := hmatch
    rw [hreport]

/-- A handler that is offered a text fails exactly if the text matches
and the callback fails on the values. -/
theorem Handler.fault_dispatch_iff (h : Handler) (t : Text) (rs : Recorders) (e : StepFault) :
    (h.dispatch t rs).2.2 = some e ↔
      ∃ log values, h.report t = .ok ⟨log, .matched values⟩ ∧
        (h.callback.call values rs).2 = some e := by
  rw [dispatch_eq]
  constructor
  · intro hfault
    cases hvalues : h.values? t with
    | none =>
        rw [hvalues] at hfault
        cases hfault
    | some values =>
        rw [hvalues] at hfault
        obtain ⟨log, hreport⟩ := values?_eq_some_iff.mp hvalues
        exact ⟨log, values, hreport, hfault⟩
  · intro hmatch
    obtain ⟨log, values, hreport, hfault⟩ := hmatch
    rw [values?_eq_some_iff.mpr ⟨log, hreport⟩]
    exact hfault

namespace Pattern

variable {p : Pattern} {t : Text}

/-- A text in which a half stands alone is rejected whatever the
pattern. -/
theorem report_of_lone {half : Fin 0x800} (h : CodePoint.lone half ∈ t) (p : Pattern)
    (options : Settings) :
    p.report options t =
      .ok ⟨[.rejected t p.directive .unencodable], .mismatch .unencodable⟩ := by
  have hpieces : t.pieces p.tokens = .error .unencodable := by
    unfold Text.pieces
    rw [Text.chars?_eq_none_of_lone h]
  exact report_of_not_cut hpieces options

/-- Kinds and types are not compared where there are not equally many of
them, neither when the pattern is checked nor when a text is matched. -/
theorem unequal_lengths (h : p.kinds.length ≠ p.shape.length) {pieces : List (List Char)}
    (hpieces : t.pieces p.tokens = .ok pieces) (options : Settings) :
    p.check = .error (.count p.directive p.kinds.length p.shape.length) ∧
      p.report options t = .ok (p.closed t
        ⟨[], .mismatch (.count pieces.length p.kinds.length p.shape.length)⟩) := by
  refine ⟨?_, report_of_unequal_lengths h hpieces options⟩
  unfold check
  rw [if_pos h]

/-- Where there are equally many kinds and types, there are as many
pieces, and they are read side by side. -/
theorem equal_lengths (h : p.kinds.length = p.shape.length) {pieces : List (List Char)}
    (hpieces : t.pieces p.tokens = .ok pieces) (options : Settings) :
    pieces.length = p.kinds.length ∧
      p.report options t =
        (readPieces options 0 (pieces.zip (p.kinds.zip p.shape))).map (p.closed t) :=
  ⟨Text.length_of_pieces_eq_ok hpieces, report_of_equal_lengths h hpieces options⟩

/-- A match always has an outcome, also with a pattern that does not pass
its check. A text in which a half stands alone is rejected as one that
cannot be decoded. Pieces, kinds and types are taken side by side only if
there are equally many. What is read as an integer lies in the 64-bit
range, and nothing that is read overflows when it is fitted, although
large integers do. A decimal beyond the limits is not read, and the match
goes on from there as for any text that is no decimal. So a handler can
only fail as its callback does, on a text that matches. -/
theorem report_total (p : Pattern) (options : Settings) (t : Text) :
    (∃ r, p.report options t = .ok r) ∧
    (∀ half, CodePoint.lone half ∈ t →
      Mismatch.unencodable.reason = .decode ∧
      p.report options t =
        .ok ⟨[.rejected t p.directive .unencodable], .mismatch .unencodable⟩) ∧
    (∀ pieces, t.pieces p.tokens = .ok pieces →
      (p.kinds.length ≠ p.shape.length →
        p.check = .error (.count p.directive p.kinds.length p.shape.length) ∧
        p.report options t = .ok (p.closed t
          ⟨[], .mismatch (.count pieces.length p.kinds.length p.shape.length)⟩)) ∧
      (p.kinds.length = p.shape.length →
        pieces.length = p.kinds.length ∧
        p.report options t =
          (readPieces options 0 (pieces.zip (p.kinds.zip p.shape))).map (p.closed t))) ∧
    (∀ (kind : Kind) mode u n, kind.read? mode u = some (.int n) →
      -2 ^ 63 ≤ n ∧ n ≤ 2 ^ 63 - 1) ∧
    (∀ (kind : Kind) mode u (v : Value), kind.read? mode u = some v →
      ∀ target narrowing, ∃ r, v.fit target narrowing = .ok r) ∧
    (∀ (n : Int) narrowing, 1024 ≤ n.natAbs.log2 →
      (Value.int n).fit .float narrowing = .error .intTooLarge) ∧
    (∀ cs d, Decimal.readUnbounded? cs = some d →
      Decimal.maxAdjusted < d.adjusted ∨ d.exponent < Decimal.minExponent →
      ∀ index target, readPiece options index cs .decimal target =
        .ok (.error (.undecodable index cs .decimal))) ∧
    (∀ callback rs e, (Handler.dispatch ⟨p, options, callback⟩ t rs).2.2 = some e ↔
      ∃ log values, p.report options t = .ok ⟨log, .matched values⟩ ∧
        (callback.call values rs).2 = some e) := by
  refine ⟨p.exists_report_eq_ok options t, fun half hhalf => ⟨rfl, report_of_lone hhalf p options⟩,
    fun pieces hpieces => ⟨fun h => unequal_lengths h hpieces options,
      fun h => equal_lengths h hpieces options⟩, ?_, ?_, ?_, ?_, ?_⟩
  · intro kind mode u n hread
    have hrange := fitsInt64_iff.mp (fitsInt64_of_read? hread)
    omega
  · intro kind mode u v hread target narrowing
    exact exists_fit_of_read? hread target narrowing
  · intro n narrowing hlarge
    exact fit_float_of_large hlarge narrowing
  · intro cs d hd hlimits index target
    simp only [readPiece, read?_decimal_of_beyond hd hlimits]
  · intro callback rs e
    exact Handler.fault_dispatch_iff ⟨p, options, callback⟩ t rs e

end Pattern

end Unformat
