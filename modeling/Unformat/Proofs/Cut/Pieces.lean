/-
The walk through the tokens finds the cut of a text: it yields pieces
exactly if there is a cut, and then the slices of its placeholders
(`pieces_iff_isCut`). So the walk, which never looks for a literal
twice, misses no cut, although it stops at the first token that does
not fit.

The induction goes by the tokens, two at a time where a placeholder has
a literal behind it: the walk only waits between those two, so every
other state it passes has no placeholder waiting.

- A literal in any other place has to occur right ahead
  (`walk_literal_eq_ok_iff`).
- A placeholder and the literal behind it take what is ahead up to the
  leftmost occurrence, which must not be right ahead
  (`walk_placeholder_literal_eq_ok_iff`).
- A placeholder at the end takes all, and of two placeholders side by
  side the walk says at once that they are not separated.

The counts of passed characters and pieces, which the walk keeps for its
messages, are arbitrary throughout.
-/
import Unformat.Proofs.Cut.Slices
import Unformat.Proofs.Except

namespace Unformat

open Literal

namespace Pieces

variable {tokens : List Token} {literal ahead : List Char} {pieces : List (List Char)}

-- ==================================================== steps of the walk

theorem walk_nil_eq_ok_iff (offset index : Nat) (waiting : Bool) :
    walk [] offset index waiting ahead = .ok pieces ↔ ahead = [] ∧ pieces = [] := by
  simp only [walk]
  constructor
  · intro h
    split at h
    · next hahead => exact ⟨hahead, (Except.ok.inj h).symm⟩
    · cases h
  · intro h
    obtain ⟨rfl, rfl⟩ := h
    rfl

/-- A literal for which nothing waits has to occur right ahead. -/
theorem walk_literal_eq_ok_iff (offset index : Nat) :
    walk (.literal literal :: tokens) offset index false ahead = .ok pieces ↔
      OccursAt literal ahead 0 ∧
        walk tokens (offset + literal.length) index false (ahead.drop literal.length)
          = .ok pieces := by
  simp only [walk]
  cases hk : offset? literal ahead with
  | none =>
      have hnone := offset?_eq_none_iff.mp hk 0
      simp [hnone]
  | some k =>
      have hleft := offset?_eq_some_iff.mp hk
      cases k with
      | zero => simp [hleft.occurs]
      | succ k =>
          have hnone := hleft.none_before 0 (by omega)
          simp [hnone]

/-- A placeholder and the literal behind it take what is ahead up to
the end of the literal's leftmost occurrence. -/
theorem walk_placeholder_literal_eq_ok_iff (kind : Kind) (offset index : Nat) :
    walk (.placeholder kind :: .literal literal :: tokens) offset index false ahead
        = .ok pieces ↔
      ∃ k rest, IsLeftmost literal ahead k ∧ k ≠ 0 ∧ pieces = ahead.take k :: rest ∧
        walk tokens (offset + (k + literal.length)) (index + 1) false
          (ahead.drop (k + literal.length)) = .ok rest := by
  simp only [walk]
  cases hk : offset? literal ahead with
  | none =>
      simp only [Bool.false_eq_true, if_false, reduceCtorEq, false_iff]
      intro h
      obtain ⟨k, rest, hleft, -⟩ := h
      exact offset?_eq_none_iff.mp hk k hleft.occurs
  | some k =>
      have hleft := offset?_eq_some_iff.mp hk
      constructor
      · intro h
        by_cases h0 : k = 0
        · simp [h0] at h
        · simp only [Bool.false_eq_true, if_false, reduceCtorEq, h0, if_true] at h
          obtain ⟨rest, hrest, rfl⟩ := map_eq_ok_iff.mp h
          exact ⟨k, rest, hleft, h0, rfl, hrest⟩
      · intro h
        obtain ⟨k', rest, hleft', h0, rfl, hrest⟩ := h
        obtain rfl := hleft.unique hleft'
        simp only [Bool.false_eq_true, if_false, reduceCtorEq, h0, if_true]
        exact map_eq_ok_iff.mpr ⟨rest, hrest, rfl⟩

-- ================================================== the walk and the cut

/-- What a literal's occurrence right ahead leaves to be cut. -/
theorem isCut_literal_iff :
    (∃ slices, IsCut (.literal literal :: tokens) ahead slices ∧
        placeholderSlices (.literal literal :: tokens) slices = pieces) ↔
      OccursAt literal ahead 0 ∧
        ∃ slices, IsCut tokens (ahead.drop literal.length) slices ∧
          placeholderSlices tokens slices = pieces := by
  constructor
  · intro h
    obtain ⟨slices, hcut, rfl⟩ := h
    obtain ⟨s, slices, rfl⟩ := hcut.exists_cons
    obtain ⟨hcase, rest, rfl, hrest⟩ := isCut_cons_iff.mp hcut
    have hlen : literal.length = s.length := SameUpToCase.length_eq hcase
    refine ⟨occursAt_zero_iff_append.mpr ⟨s, rest, rfl, hcase⟩, slices, ?_, rfl⟩
    rw [hlen, List.drop_left]
    exact hrest
  · intro h
    obtain ⟨hocc, slices, hcut, rfl⟩ := h
    obtain ⟨s, rest, rfl, hcase⟩ := occursAt_zero_iff_append.mp hocc
    rw [hcase.length_eq, List.drop_left] at hcut
    exact ⟨s :: slices, hcut.cons hcase, rfl⟩

/-- What a placeholder and the literal behind it leave to be cut. -/
theorem isCut_placeholder_literal_iff (kind : Kind) :
    (∃ slices, IsCut (.placeholder kind :: .literal literal :: tokens) ahead slices ∧
        placeholderSlices (.placeholder kind :: .literal literal :: tokens) slices = pieces) ↔
      ∃ k rest, IsLeftmost literal ahead k ∧ k ≠ 0 ∧ pieces = ahead.take k :: rest ∧
        ∃ slices, IsCut tokens (ahead.drop (k + literal.length)) slices ∧
          placeholderSlices tokens slices = rest := by
  constructor
  · intro h
    obtain ⟨slices, hcut, rfl⟩ := h
    obtain ⟨gap, slices, rfl⟩ := hcut.exists_cons
    obtain ⟨⟨hne, -⟩, ahead, rfl, hrest⟩ := isCut_cons_iff.mp hcut
    obtain ⟨-, slices', hcut', hslices'⟩ := isCut_literal_iff.mp ⟨slices, hrest, rfl⟩
    refine ⟨gap.length, _, hcut.isLeftmost, ?_, ?_, slices', ?_, hslices'⟩
    · exact mt List.eq_nil_of_length_eq_zero hne
    · rw [List.take_left]
      rfl
    · rw [List.drop_length_add_append]
      exact hcut'
  · intro h
    obtain ⟨k, rest, hleft, h0, rfl, htail⟩ := h
    obtain ⟨gap, s, after, rfl, rfl, hcase⟩ := hleft.occurs
    rw [List.append_assoc, List.drop_length_add_append] at htail
    obtain ⟨slices, hcut, hslices⟩ := isCut_literal_iff.mpr
      ⟨occursAt_zero_iff_append.mpr ⟨s, after, rfl, hcase⟩, htail⟩
    rw [List.append_assoc] at hleft ⊢
    refine ⟨gap :: slices, hcut.cons ⟨?_, hleft.none_before⟩, ?_⟩
    · rintro rfl
      exact h0 rfl
    · rw [List.take_left, placeholderSlices_placeholder, hslices]

/-- The walk yields pieces exactly if there is a cut, and then the
slices of its placeholders. -/
theorem walk_eq_ok_iff_isCut :
    ∀ (tokens : List Token) (offset index : Nat) (ahead : List Char) (pieces : List (List Char)),
      walk tokens offset index false ahead = .ok pieces ↔
        ∃ slices, IsCut tokens ahead slices ∧ placeholderSlices tokens slices = pieces
  | [], offset, index, ahead, pieces => by
      rw [walk_nil_eq_ok_iff]
      simp only [isCut_nil_iff]
      constructor
      · intro h
        obtain ⟨rfl, rfl⟩ := h
        exact ⟨[], ⟨rfl, rfl⟩, rfl⟩
      · intro h
        obtain ⟨slices, ⟨rfl, rfl⟩, rfl⟩ := h
        exact ⟨rfl, rfl⟩
  | .literal literal :: tokens, offset, index, ahead, pieces => by
      rw [walk_literal_eq_ok_iff, isCut_literal_iff]
      rw [walk_eq_ok_iff_isCut tokens]
  | [.placeholder kind], offset, index, ahead, pieces => by
      simp only [walk, Bool.false_eq_true, if_false, if_true]
      constructor
      · intro h
        obtain rfl := Except.ok.inj h
        have hnil : IsCut [] [] [] := isCut_nil_iff.mpr ⟨rfl, rfl⟩
        refine ⟨[ahead], ?_, rfl⟩
        exact isCut_cons_iff.mpr ⟨trivial, [], (List.append_nil ahead).symm, hnil⟩
      · intro h
        obtain ⟨slices, hcut, rfl⟩ := h
        obtain ⟨s, slices, rfl⟩ := hcut.exists_cons
        obtain ⟨-, rest, rfl, hrest⟩ := isCut_cons_iff.mp hcut
        obtain ⟨rfl, rfl⟩ := isCut_nil_iff.mp hrest
        rw [List.append_nil]
        rfl
  | .placeholder kind :: .placeholder kind' :: tokens, offset, index, ahead, pieces => by
      simp only [walk, Bool.false_eq_true, if_false, if_true, reduceCtorEq, false_iff]
      intro h
      obtain ⟨slices, hcut, -⟩ := h
      exact hcut.separated 0 kind kind' rfl rfl
  | .placeholder kind :: .literal literal :: tokens, offset, index, ahead, pieces => by
      rw [walk_placeholder_literal_eq_ok_iff, isCut_placeholder_literal_iff]
      simp only [walk_eq_ok_iff_isCut tokens]

end Pieces

-- ============================================================= texts

/-- A text of characters is cut as a list of them. -/
theorem Text.pieces_ofChars (tokens : List Token) (cs : List Char) :
    (Text.ofChars cs).pieces tokens = Unformat.pieces tokens cs := by
  unfold Text.pieces
  rw [Text.chars?_ofChars]

theorem Text.pieces_ofChars_eq_ok_iff {tokens : List Token} {cs : List Char}
    {pieces : List (List Char)} :
    (Text.ofChars cs).pieces tokens = .ok pieces ↔
      ∃ slices, IsCut tokens cs slices ∧ placeholderSlices tokens slices = pieces := by
  rw [Text.pieces_ofChars]
  exact Pieces.walk_eq_ok_iff_isCut tokens 0 0 cs pieces

/-- Only texts of characters have pieces. -/
theorem Text.exists_isCut_of_pieces_eq_ok {tokens : List Token} {t : Text}
    {pieces : List (List Char)} (h : t.pieces tokens = .ok pieces) :
    ∃ cs slices, t = Text.ofChars cs ∧ IsCut tokens cs slices ∧
      placeholderSlices tokens slices = pieces := by
  cases ht : t.chars? with
  | none =>
      unfold Text.pieces at h
      rw [ht] at h
      cases h
  | some cs =>
      obtain rfl := Text.eq_ofChars_of_chars? ht
      obtain ⟨slices, hcut, hpieces⟩ := Text.pieces_ofChars_eq_ok_iff.mp h
      exact ⟨cs, slices, rfl, hcut, hpieces⟩

/-- There is one piece for each placeholder. -/
theorem Text.length_of_pieces_eq_ok {tokens : List Token} {t : Text} {pieces : List (List Char)}
    (h : t.pieces tokens = .ok pieces) :
    pieces.length = (tokens.filterMap Token.kind?).length := by
  obtain ⟨cs, slices, -, hcut, rfl⟩ := Text.exists_isCut_of_pieces_eq_ok h
  exact length_placeholderSlices hcut.length_eq

/-- The pieces of a text are the slices of the placeholders in its cut,
which is the only one; where there is no cut there is a mismatch. There
are as many pieces as placeholders, and put between the matched literals
they give back the text. -/
theorem pieces_iff_isCut (tokens : List Token) (cs : List Char) :
    (∀ pieces, (Text.ofChars cs).pieces tokens = .ok pieces ↔
      ∃ slices, IsCut tokens cs slices ∧ placeholderSlices tokens slices = pieces) ∧
    (∀ slices slices', IsCut tokens cs slices → IsCut tokens cs slices' → slices = slices') ∧
    ((¬ ∃ slices, IsCut tokens cs slices) →
      ∃ cause, (Text.ofChars cs).pieces tokens = .error cause) ∧
    (∀ pieces, (Text.ofChars cs).pieces tokens = .ok pieces →
      pieces.length = (tokens.filterMap Token.kind?).length ∧
      ∃ matched, List.Forall₂ SameUpToCase (tokens.filterMap Token.text?) matched ∧
        (interleave tokens matched pieces).flatten = cs) := by
  refine ⟨fun pieces => Text.pieces_ofChars_eq_ok_iff, fun _ _ => IsCut.unique, ?_, ?_⟩
  · intro hnone
    cases hp : (Text.ofChars cs).pieces tokens with
    | error cause => exact ⟨cause, rfl⟩
    | ok pieces =>
        obtain ⟨slices, hcut, -⟩ := Text.pieces_ofChars_eq_ok_iff.mp hp
        exact absurd ⟨slices, hcut⟩ hnone
  · intro pieces hp
    refine ⟨Text.length_of_pieces_eq_ok hp, ?_⟩
    obtain ⟨slices, hcut, rfl⟩ := Text.pieces_ofChars_eq_ok_iff.mp hp
    refine ⟨literalSlices tokens slices, hcut.literals_sameUpToCase, ?_⟩
    rw [interleave_slices hcut.length_eq]
    exact hcut.flatten_eq

-- the first piece ends at the first slash, the last one takes the other
example : pieces [.placeholder .string, .literal ['/'], .placeholder .string]
    ['a', '/', 'b', '/'] = .ok [['a'], ['b', '/']] := rfl

end Unformat
