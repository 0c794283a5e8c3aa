/-
Which floating-point numbers a match hands over. They come from integers
and from decimals. An integer that is read has a finite number nearest to
it, but a decimal can be as large as its exponent says, and from a bound
on the number nearest to it is an infinity (`Entry.Overflows`). So the
numbers of a match are finite if and only if no piece of it is such a
decimal (`Pattern.floats_of_matched`), and what stands for no number at
all is never among them.
-/
import Unformat.Proofs.CommandLine.Json
import Unformat.Proofs.Match.Values
import Unformat.Proofs.Number.Overflow
import Unformat.JsonLine

namespace Unformat

-- ============================================== statement vocabulary

/-- The piece is read as a decimal that is too large for the
floating-point number which the shape asks for. -/
def Entry.Overflows : Entry → Prop
  | (piece, kind, target) => kind = .decimal ∧ target = .float ∧
      ∃ d, Decimal.read? piece = some d ∧ (Binary64.overflowBound : ℚ) ≤ |d.number|

-- ============================================================== values

/-- A floating-point number is fitted from an integer, from a decimal or
from itself. -/
theorem Value.of_fit_float {u : Value} {target : ElementType} {narrowing : Narrowing}
    {x : Binary64} (h : u.fit target narrowing = .ok (some (.float x))) :
    u = .float x ∨ (∃ n, u = .int n ∧ Binary64.ofInt? n = some x) ∨
      ∃ d, u = .decimal d ∧ target = .float ∧ Binary64.ofDecimal d = x := by
  cases u with
  | float y =>
      cases target <;> exact .inl (Option.some.inj (Except.ok.inj h))
  | str t =>
      cases target with
      | char =>
          obtain ⟨t', -, ht'⟩ := Option.map_eq_some_iff.mp (Except.ok.inj h)
          cases ht'
      | _ => cases Except.ok.inj h
  | bool b => cases target <;> cases Except.ok.inj h
  | int n =>
      cases target with
      | int32 | uint32 =>
          obtain ⟨m, -, hm⟩ := Option.map_eq_some_iff.mp (Except.ok.inj h)
          cases hm
      | float =>
          simp only [Value.fit] at h
          split at h
          next y hy =>
            cases Except.ok.inj h
            exact .inr (.inl ⟨n, rfl, hy⟩)
          · cases h
      | _ => cases Except.ok.inj h
  | decimal d =>
      cases target with
      | float =>
          cases Except.ok.inj h
          exact .inr (.inr ⟨d, rfl, rfl, rfl⟩)
      | _ => cases Except.ok.inj h

/-- Only decimals are read as decimals. -/
theorem Kind.of_read?_decimal {kind : Kind} {mode : HexReading} {cs : List Char} {d : Decimal}
    (h : kind.read? mode (Text.ofChars cs) = some (.decimal d)) :
    kind = .decimal ∧ Decimal.read? cs = some d := by
  cases kind with
  | decimal =>
      obtain ⟨d', hread, hd⟩ := Option.map_eq_some_iff.mp h
      rw [Text.chars?_ofChars, Option.bind_some] at hread
      cases hd
      exact ⟨rfl, hread⟩
  | string => cases h
  | char | bool | int | hex =>
      obtain ⟨_, -, hd⟩ := Option.map_eq_some_iff.mp h
      cases hd

/-- No piece is read as a floating-point number. -/
theorem Kind.read?_ne_float {kind : Kind} {mode : HexReading} {t : Text} {x : Binary64} :
    kind.read? mode t ≠ some (.float x) := by
  intro h
  cases kind with
  | string => cases h
  | char | bool | int | decimal | hex =>
      obtain ⟨_, -, hx⟩ := Option.map_eq_some_iff.mp h
      cases hx

namespace Entry

variable {options : Settings} {e : Entry} {x : Binary64}

/-- The value of a piece that is too large is an infinity. -/
theorem Overflows.value? (h : e.Overflows) (options : Settings) :
    ∃ x, e.value? options = some (.float x) ∧ x.isFinite = false := by
  obtain ⟨piece, kind, target⟩ := e
  obtain ⟨rfl, rfl, d, hread, hbound⟩ := h
  have hvalue : Kind.decimal.read? options.hexMode (Text.ofChars piece) = some (.decimal d) := by
    simp [Kind.read?, hread]
  have hinfinite : (Binary64.ofDecimal d).isFinite = false := by
    rw [← Bool.not_eq_true, Binary64.isFinite_ofDecimal_iff, not_lt]
    exact hbound
  exact ⟨_, value?_eq_some_iff.mpr ⟨_, hvalue, rfl⟩, hinfinite⟩

/-- A floating-point number is an infinity exactly if its piece is too
large. -/
theorem isFinite_eq_false_iff (h : e.value? options = some (.float x)) :
    x.isFinite = false ↔ e.Overflows := by
  constructor
  · intro hinfinite
    obtain ⟨piece, kind, target⟩ := e
    obtain ⟨u, hread, hfit⟩ := value?_eq_some_iff.mp h
    rcases Value.of_fit_float hfit with rfl | ⟨n, -, hx⟩ | ⟨d, rfl, rfl, rfl⟩
    · exact absurd hread Kind.read?_ne_float
    · rw [Binary64.isFinite_of_ofInt? hx] at hinfinite
      cases hinfinite
    · obtain ⟨rfl, hd⟩ := Kind.of_read?_decimal hread
      rw [← Bool.not_eq_true, Binary64.isFinite_ofDecimal_iff, not_lt] at hinfinite
      exact ⟨rfl, rfl, d, hd, hinfinite⟩
  · intro hover
    obtain ⟨y, hy, hinfinite⟩ := hover.value? options
    rw [h] at hy
    cases hy
    exact hinfinite

/-- Beside finite numbers there are infinities and nothing else. -/
theorem magnitude_le (h : e.value? options = some (.float x)) :
    x.magnitude.val ≤ Binary64.infinityBits := by
  obtain ⟨piece, kind, target⟩ := e
  obtain ⟨u, hread, hfit⟩ := value?_eq_some_iff.mp h
  rcases Value.of_fit_float hfit with rfl | ⟨n, -, hx⟩ | ⟨d, -, -, rfl⟩
  · exact absurd hread Kind.read?_ne_float
  · have hfinite := Binary64.isFinite_of_ofInt? hx
    rw [Binary64.isFinite, decide_eq_true_eq] at hfinite
    exact Nat.le_of_lt hfinite
  · exact Nat.min_le_right _ _

end Entry

-- ============================================================== matches

namespace Pattern

/-- The floating-point numbers of a match are finite but for those whose
piece is a decimal that is too large, and these are infinities; none of
them stands for no number at all. So all of them are finite exactly if no
piece is too large. -/
theorem floats_of_matched {p : Pattern} {options : Settings} {t : Text} {log : List Event}
    {values : List Value} (h : p.report options t = .ok ⟨log, .matched values⟩) :
    ∃ pieces, t.pieces p.tokens = .ok pieces ∧
      List.Forall₂ (fun (e : Entry) v => e.value? options = some v ∧ ∀ x, v = .float x →
          x.magnitude.val ≤ Binary64.infinityBits ∧ (x.isFinite = false ↔ e.Overflows))
        ((p.entries pieces).filter fun e => (e.value? options).isSome) values ∧
      ((∀ x, Value.float x ∈ values → x.isFinite = true) ↔
        ∀ e ∈ p.entries pieces, ¬ e.Overflows) := by
  obtain ⟨pieces, hpieces, hshape, hread⟩ := report_eq_matched_iff.mp h
  have hvalues := values_eq_of_matched hread
  refine ⟨pieces, hpieces, ?_, ?_⟩
  · rw [hvalues]
    refine (forall₂_filter_filterMap _ _).imp fun e v hv => ⟨hv, fun x hx => ?_⟩
    subst hx
    exact ⟨Entry.magnitude_le hv, Entry.isFinite_eq_false_iff hv⟩
  · constructor
    · intro hfinite e he hover
      obtain ⟨x, hx, hinfinite⟩ := hover.value? options
      have hmem : Value.float x ∈ values := by
        rw [hvalues]
        exact List.mem_filterMap.mpr ⟨e, he, hx⟩
      rw [hfinite x hmem] at hinfinite
      cases hinfinite
    · intro hnone x hx
      rw [hvalues] at hx
      obtain ⟨e, he, hvalue⟩ := List.mem_filterMap.mp hx
      rw [← Bool.not_eq_false, Entry.isFinite_eq_false_iff hvalue]
      exact hnone e he

/-- The largest number and what is too large by far, around an
integer. -/
theorem floats_of_matched_beside_infinity :
    let p : Pattern :=
      ⟨[], [.placeholder .decimal, .literal [','], .placeholder .int, .literal [','],
        .placeholder .decimal], [.float, .float, .float]⟩
    let t : Text := Text.ofChars "1.7976931348623157e308,-2,-1e400".toList
    let values : List Value := [.float ⟨false, 0x7FEFFFFFFFFFFFFF⟩,
      .float ⟨true, 0x4000000000000000⟩, .float ⟨true, 0x7FF0000000000000⟩]
    p.report {} t = .ok ⟨[], .matched values⟩ ∧
      ∃ pieces, t.pieces p.tokens = .ok pieces ∧
        List.Forall₂ (fun (e : Entry) v => e.value? {} = some v ∧ ∀ x, v = .float x →
            x.magnitude.val ≤ Binary64.infinityBits ∧ (x.isFinite = false ↔ e.Overflows))
          ((p.entries pieces).filter fun e => (e.value? {}).isSome) values ∧
        ¬ ∀ e ∈ p.entries pieces, ¬ e.Overflows := by
  intro p t values
  have h : p.report {} t = .ok ⟨[], .matched values⟩ := by decide +kernel
  obtain ⟨pieces, hpieces, hvalues, hfinite⟩ := floats_of_matched h
  refine ⟨h, pieces, hpieces, hvalues, ?_⟩
  intro hnone
  have hlast : (⟨true, 0x7FF0000000000000⟩ : Binary64).isFinite = true :=
    hfinite.mpr hnone _ (by decide)
  exact absurd hlast (by decide)

/-- A valid pattern hands over an infinity, and what is printed of it is
no JSON. -/
theorem report_infinity :
    let p : Pattern := ⟨Text.ofChars "%f".toList, [.placeholder .decimal], [.float]⟩
    p.check = .ok () ∧
      p.report {} (Text.ofChars "1e400".toList)
        = .ok ⟨[], .matched [.float (Binary64.infinity false)]⟩ ∧
      (Binary64.infinity false).isFinite = false ∧
      (Json.read? (JsonLine.write [.float (Binary64.infinity false)])).isNone = true := by
  refine ⟨rfl, ?_, rfl, ?_⟩
  · decide +kernel
  · decide +kernel

end Pattern

end Unformat
