/-
The two ways to read base sixteen beside each other, on the same text
with the other options the same (`Pattern.legacy_removes_hex`). The old
way, `legacy`, reads nothing at all, so:

- a pattern with a placeholder of kind `hex` never matches under the
  strict policy;
- under the lenient one it is rejected with the other way for the same
  cause, or matches with it, and is short of the values that come from
  placeholders of that kind;
- a pattern without them has the same runs under either policy.

The runs differ in the values of the entries alone
(`Entry.value?_legacy`), and which of them are of kind `hex` can be told
from the pattern: the entry at an index has the kind of the placeholder
there (`Pattern.value?_legacy`).
-/
import Unformat.Proofs.Match.Values
import Unformat.Proofs.Number.BaseSixteen

namespace Unformat

variable {narrowing : Narrowing}

-- ============================================================= entries

/-- Only one kind reads base sixteen. -/
theorem Kind.read?_congr {kind : Kind} (hkind : kind ≠ .hex) (mode mode' : HexReading) (t : Text) :
    kind.read? mode t = kind.read? mode' t := by
  cases kind with
  | hex => exact absurd rfl hkind
  | _ => rfl

/-- The old way reads no text, with lone halves or without. -/
theorem Kind.read?_hex_legacy (t : Text) : Kind.hex.read? .legacy t = none := by
  have hread : readHex? .legacy = fun _ => none := funext readHex?_legacy
  simp [Kind.read?, hread]

namespace Entry

/-- The old way, entries of kind `hex` have no value, and all others the
value that they have the other way. -/
theorem value?_legacy (policy : Policy) (narrowing : Narrowing) (e : Entry) :
    e.value? ⟨policy, .legacy, narrowing⟩ =
      if e.2.1 = .hex then none else e.value? ⟨policy, .base16, narrowing⟩ := by
  obtain ⟨piece, kind, target⟩ := e
  by_cases hkind : kind = .hex
  · subst hkind
    simp [value?, Kind.read?_hex_legacy]
  · rw [if_neg hkind]
    simp only [value?, Kind.read?_congr hkind .legacy .base16]

/-- Why an entry of another kind has no value is the same both ways. -/
theorem cause_legacy {e : Entry} (hkind : e.2.1 ≠ .hex) (policy : Policy) (narrowing : Narrowing)
    (index : Nat) :
    e.cause ⟨policy, .legacy, narrowing⟩ index = e.cause ⟨policy, .base16, narrowing⟩ index := by
  obtain ⟨piece, kind, target⟩ := e
  simp only [cause, Kind.read?_congr hkind .legacy .base16]

end Entry

-- ============================================================= patterns

namespace Pattern

variable {p : Pattern} {t : Text} {pieces : List (List Char)}

/-- The entry at an index has the kind of the placeholder there. -/
theorem kind_of_getElem?_entries {e : Entry} {i : Nat} (h : (p.entries pieces)[i]? = some e) :
    p.kinds[i]? = some e.2.1 := by
  obtain ⟨-, hrest⟩ := List.getElem?_zip_eq_some.mp h
  exact (List.getElem?_zip_eq_some.mp hrest).1

theorem value?_legacy (p : Pattern) (policy : Policy) (narrowing : Narrowing)
    (pieces : List (List Char)) (i : Nat) :
    p.value? ⟨policy, .legacy, narrowing⟩ pieces i =
      if p.kinds[i]? = some .hex then none else p.value? ⟨policy, .base16, narrowing⟩ pieces i := by
  unfold value?
  cases hentry : (p.entries pieces)[i]? with
  | none => simp
  | some e =>
      simp only [kind_of_getElem?_entries hentry, Option.bind_some, Option.some_inj]
      exact Entry.value?_legacy policy narrowing e

/-- With a placeholder of kind `hex` some value is always missing the old
way, so the strict policy rejects every text. -/
theorem exists_mismatch_of_hex (hhex : Kind.hex ∈ p.kinds) (narrowing : Narrowing) (t : Text) :
    ∃ log cause, p.report ⟨.strict, .legacy, narrowing⟩ t = .ok ⟨log, .mismatch cause⟩ := by
  obtain ⟨⟨log, outcome⟩, hreport⟩ := p.exists_report_eq_ok ⟨.strict, .legacy, narrowing⟩ t
  cases outcome with
  | mismatch cause => exact ⟨log, cause, hreport⟩
  | matched values =>
      obtain ⟨pieces, hpieces, hshape, hread⟩ := report_eq_matched_iff.mp hreport
      have hvalues := values_of_strict_matched rfl hread
      change ∀ e ∈ p.entries pieces, _ at hvalues
      rw [← map_kind_entries hpieces hshape] at hhex
      obtain ⟨e, he, hkind⟩ := List.mem_map.mp hhex
      have hvalue := hvalues e he
      rw [Entry.value?_legacy, if_pos hkind] at hvalue
      cases hvalue

/-- Without placeholders of kind `hex` the runs are the same. -/
theorem readPieces_legacy (hpieces : t.pieces p.tokens = .ok pieces)
    (hshape : p.kinds.length = p.shape.length) (hhex : Kind.hex ∉ p.kinds) (policy : Policy)
    (narrowing : Narrowing) :
    readPieces ⟨policy, .legacy, narrowing⟩ 0 (p.entries pieces)
      = readPieces ⟨policy, .base16, narrowing⟩ 0 (p.entries pieces) := by
  apply readPieces_congr
  · rfl
  · intro e he
    have hkind : e.2.1 ≠ .hex := by
      intro h
      apply hhex
      rw [← map_kind_entries hpieces hshape, ← h]
      exact List.mem_map_of_mem he
    exact ⟨by rw [Entry.value?_legacy, if_neg hkind], Entry.cause_legacy hkind policy narrowing⟩

/-- The old way to read base sixteen reads no text. A pattern with a
placeholder of kind `hex` rejects every text that way under the strict
policy. Under the lenient one it rejects what it rejects the other way,
for the same cause, and matches what it matches that way, with the same
values other than those at positions of such placeholders. A pattern
without them has the same runs both ways. -/
theorem legacy_removes_hex (p : Pattern) (narrowing : Narrowing) (t : Text) :
    (∀ cs, readHex? .legacy cs = none) ∧
    (Kind.hex ∈ p.kinds → ∃ log cause,
      p.report ⟨.strict, .legacy, narrowing⟩ t = .ok ⟨log, .mismatch cause⟩) ∧
    (∃ base16 legacy,
      p.report ⟨.lenient, .base16, narrowing⟩ t = .ok base16 ∧
      p.report ⟨.lenient, .legacy, narrowing⟩ t = .ok legacy ∧
      ((∃ cause, base16.outcome = .mismatch cause ∧ legacy.outcome = .mismatch cause) ∨
        ∃ pieces positions values, t.pieces p.tokens = .ok pieces ∧
          positions = (List.range p.shape.length).filter (fun i =>
            (p.value? ⟨.lenient, .base16, narrowing⟩ pieces i).isSome) ∧
          List.Forall₂ (fun i v => p.value? ⟨.lenient, .base16, narrowing⟩ pieces i = some v)
            positions values ∧
          base16.outcome = .matched values ∧
          legacy.outcome = .matched (((positions.zip values).filter fun e =>
            p.kinds[e.1]? ≠ some .hex).map Prod.snd))) ∧
    (Kind.hex ∉ p.kinds → ∀ policy,
      p.report ⟨policy, .legacy, narrowing⟩ t = p.report ⟨policy, .base16, narrowing⟩ t) := by
  refine ⟨readHex?_legacy, fun hhex => exists_mismatch_of_hex hhex narrowing t, ?_⟩
  rcases report_cases p t with ⟨cause, hreport⟩ | ⟨pieces, hpieces, hshape, hreport⟩
  · refine ⟨⟨_, _, hreport _, hreport _, .inl ⟨cause, rfl, rfl⟩⟩, fun _ policy => ?_⟩
    rw [hreport, hreport]
  have hok : ∀ {options r}, readPieces options 0 (p.entries pieces) = .ok r →
      p.report options t = .ok (p.closed t r) := fun hread => by
    rw [hreport, hread]
    rfl
  refine ⟨?_, fun hhex policy => ?_⟩
  · rcases suits_or_mismatch_of_lenient (p.entries pieces) with hsuits | ⟨cause, hread⟩
    · have hvalue : ∀ i, p.value? ⟨.lenient, .legacy, narrowing⟩ pieces i =
          if decide (p.kinds[i]? = some .hex) then none
          else p.value? ⟨.lenient, .base16, narrowing⟩ pieces i := fun i => by
        simp only [value?_legacy, decide_eq_true_eq]
      obtain ⟨positions, values, log, log', hpositions, hbeside, hbase16, hlegacy⟩ :=
        exists_values_of_removed rfl rfl hpieces hshape hsuits hvalue
      refine ⟨_, _, hok hbase16, hok hlegacy,
        .inr ⟨pieces, positions, values, hpieces, hpositions, hbeside, rfl, ?_⟩⟩
      simp only [ne_eq, decide_not]
      rfl
    · obtain ⟨log, hbase16⟩ := hread ⟨.lenient, .base16, narrowing⟩ rfl
      obtain ⟨log', hlegacy⟩ := hread ⟨.lenient, .legacy, narrowing⟩ rfl
      exact ⟨_, _, hok hbase16, hok hlegacy, .inl ⟨cause, rfl, rfl⟩⟩
  · rw [hreport, hreport, readPieces_legacy hpieces hshape hhex]

-- the number in base sixteen is left out the old way, the text both ways
example :
    let p : Pattern := ⟨[], [.placeholder .hex, .literal [','], .placeholder .int, .literal [','],
      .placeholder .int], [.int64, .int64, .int64]⟩
    let t : Text := Text.ofChars ['F', ',', 'F', ',', '7']
    p.report ⟨.lenient, .base16, .wrap⟩ t = .ok
      ⟨[.dropped (.undecodable 1 ['F'] .int)], .matched [.int 15, .int 7]⟩ ∧
    p.report ⟨.lenient, .legacy, .wrap⟩ t = .ok
      ⟨[.dropped (.undecodable 0 ['F'] .hex), .dropped (.undecodable 1 ['F'] .int)],
        .matched [.int 7]⟩ := by
  decide +kernel

end Pattern

end Unformat
