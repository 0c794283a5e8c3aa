/-
Texts put together from literals and pieces, and when they are cut where
they were joined (`isCut_interleave`): no two placeholders stand side by
side, and every piece with a literal behind it is not empty and ends
where that literal first occurs in the two of them (`Delimited`). What
comes behind the literal does not matter, for an occurrence that starts
within the piece has ended with the literal; nor does the letter case in
which the literals are written.

Pieces that end so exist for all tokens in which no placeholder has an
empty literal behind it (`exists_delimited`): one character is enough
that is not the first one of the literal.
-/
import Unformat.Proofs.Cut.Pieces

namespace Unformat

open Literal

-- ============================================== statement vocabulary

/-- A piece is not empty, and the literal behind it does not occur from
any place within it on. -/
def EndsAt (literal piece : List Char) : Prop :=
  piece ≠ [] ∧ ∀ o < piece.length, ¬ OccursAt literal (piece ++ literal) o

/-- Each piece with a literal behind its placeholder ends at it. -/
def Delimited (tokens : List Token) (pieces : List (List Char)) : Prop :=
  ∀ (i : Nat) (kind : Kind) (literal piece : List Char),
    tokens[i]? = some (.placeholder kind) → tokens[i + 1]? = some (.literal literal) →
    pieces[((tokens.take i).filterMap Token.kind?).length]? = some piece →
    EndsAt literal piece

/-- No placeholder has an empty literal behind it. -/
def NoEmptyBehind (tokens : List Token) : Prop :=
  ∀ (i : Nat) (kind : Kind), tokens[i]? = some (.placeholder kind) →
    tokens[i + 1]? ≠ some (.literal [])

/-- A piece ends at the literal behind it if a search in the two of them
finds the literal no earlier. -/
theorem endsAt_iff {literal piece : List Char} :
    EndsAt literal piece ↔
      piece ≠ [] ∧ offset? literal (piece ++ literal) = some piece.length := by
  have hocc : OccursAt literal (piece ++ literal) piece.length :=
    (occursAt_append_left piece 0).mpr
      (occursAt_zero_iff_append.mpr ⟨literal, [], (List.append_nil literal).symm, .refl literal⟩)
  rw [offset?_eq_some_iff]
  constructor
  · intro h
    obtain ⟨hne, hnone⟩ := h
    exact ⟨hne, hocc, hnone⟩
  · intro h
    obtain ⟨hne, hleft⟩ := h
    exact ⟨hne, hleft.none_before⟩

instance (literal piece : List Char) : Decidable (EndsAt literal piece) :=
  decidable_of_iff _ endsAt_iff.symm

-- ===================================================== the first token

theorem delimited_literal_iff {l : List Char} {tokens : List Token} {pieces : List (List Char)} :
    Delimited (.literal l :: tokens) pieces ↔ Delimited tokens pieces := by
  constructor
  · intro h i
    exact h (i + 1)
  · intro h i kind literal piece ht hl hp
    cases i with
    | zero => cases ht
    | succ i => exact h i kind literal piece ht hl hp

theorem delimited_placeholder_iff {kind : Kind} {tokens : List Token} {p : List Char}
    {pieces : List (List Char)} :
    Delimited (.placeholder kind :: tokens) (p :: pieces) ↔
      (∀ literal, tokens[0]? = some (.literal literal) → EndsAt literal p) ∧
        Delimited tokens pieces := by
  constructor
  · intro h
    exact ⟨fun literal hl => h 0 kind literal p rfl hl rfl, fun i => h (i + 1)⟩
  · intro h i kind' literal piece ht hl hp
    obtain ⟨hfirst, hrest⟩ := h
    cases i with
    | zero =>
        obtain rfl := Option.some.inj hp
        exact hfirst literal hl
    | succ i => exact hrest i kind' literal piece ht hl hp

theorem noEmptyBehind_cons_iff {t : Token} {tokens : List Token} :
    NoEmptyBehind (t :: tokens) ↔
      (∀ kind, t = .placeholder kind → tokens[0]? ≠ some (.literal [])) ∧
        NoEmptyBehind tokens := by
  constructor
  · intro h
    exact ⟨fun kind ht => h 0 kind (congrArg some ht), fun i => h (i + 1)⟩
  · intro h i kind ht
    obtain ⟨hfirst, hrest⟩ := h
    cases i with
    | zero => exact hfirst kind (Option.some.inj ht)
    | succ i => exact hrest i kind ht

/-- The empty literal occurs everywhere, so no piece can end at it. -/
theorem IsCut.noEmptyBehind {tokens : List Token} {text : List Char} {slices : List (List Char)}
    (h : IsCut tokens text slices) : NoEmptyBehind tokens := by
  induction tokens generalizing text slices with
  | nil => exact fun i kind ht => by cases ht
  | cons t tokens ih =>
      obtain ⟨s, slices, rfl⟩ := h.exists_cons
      refine noEmptyBehind_cons_iff.mpr ⟨?_, ih h.tail⟩
      rintro kind rfl hempty
      obtain ⟨l, tokens, rfl⟩ : ∃ l tokens', tokens = l :: tokens' := by
        cases tokens with
        | nil => cases hempty
        | cons l tokens => exact ⟨l, tokens, rfl⟩
      obtain rfl := Option.some.inj hempty
      obtain ⟨hne, hnone⟩ := h.headFits
      exact hnone 0 (List.length_pos_iff.mpr hne) (occursAt_zero_iff.mpr (by simp [agrees]))

-- ========================================================== assembling

/-- The literal may be in any letter case and have anything behind
it. -/
theorem EndsAt.not_occursAt {literal piece variant : List Char} (h : EndsAt literal piece)
    (hcase : SameUpToCase literal variant) (rest : List Char) {o : Nat} (ho : o < piece.length) :
    ¬ OccursAt literal (piece ++ (variant ++ rest)) o := by
  intro hocc
  refine h.2 o ho ?_
  -- an occurrence that starts in the piece ends in the variant at the latest
  have hlen := hcase.length_eq
  have hreach : o + literal.length ≤ (piece ++ variant).length := by
    rw [List.length_append]
    omega
  rw [← List.append_assoc, occursAt_append_right hreach] at hocc
  exact hocc.of_sameUpToCase ((SameUpToCase.refl piece).append hcase.symm)

/-- A text put together from delimited pieces is cut where it was
joined. -/
theorem isCut_interleave {tokens : List Token} {matched pieces : List (List Char)}
    (hmatched : List.Forall₂ SameUpToCase (tokens.filterMap Token.text?) matched)
    (hlength : pieces.length = (tokens.filterMap Token.kind?).length)
    (hsep : Separated tokens) (hdelim : Delimited tokens pieces) :
    IsCut tokens (interleave tokens matched pieces).flatten (interleave tokens matched pieces) ∧
      placeholderSlices tokens (interleave tokens matched pieces) = pieces := by
  induction tokens generalizing matched pieces with
  | nil =>
      obtain rfl := List.eq_nil_of_length_eq_zero hlength
      exact ⟨isCut_nil_iff.mpr ⟨rfl, rfl⟩, rfl⟩
  | cons t tokens ih =>
      obtain ⟨hfirst, hseprest⟩ := separated_cons_iff.mp hsep
      cases t with
      | literal l =>
          obtain ⟨m, matched, hm, hrest, rfl⟩ := List.forall₂_cons_left_iff.mp hmatched
          obtain ⟨hcut, hpieces⟩ := ih hrest hlength hseprest (delimited_literal_iff.mp hdelim)
          exact ⟨hcut.cons hm, hpieces⟩
      | placeholder kind =>
          obtain ⟨p, pieces, rfl⟩ := List.exists_cons_of_length_eq_add_one hlength
          obtain ⟨hend, hrest⟩ := delimited_placeholder_iff.mp hdelim
          obtain ⟨hcut, hpieces⟩ := ih hmatched (Nat.succ.inj hlength) hseprest hrest
          refine ⟨hcut.cons ?_, congrArg (p :: ·) hpieces⟩
          match tokens with
          | [] => trivial
          | .placeholder kind' :: _ => exact absurd rfl (hfirst kind kind' rfl)
          | .literal l :: _ =>
              obtain ⟨m, matched, hm, -, rfl⟩ := List.forall₂_cons_left_iff.mp hmatched
              exact ⟨(hend l rfl).1, fun o ho => (hend l rfl).not_occursAt hm _ ho⟩

/-- A text put together from delimited pieces yields them again. -/
theorem pieces_interleave {tokens : List Token} {matched pieces : List (List Char)}
    (hmatched : List.Forall₂ SameUpToCase (tokens.filterMap Token.text?) matched)
    (hlength : pieces.length = (tokens.filterMap Token.kind?).length)
    (hsep : Separated tokens) (hdelim : Delimited tokens pieces) :
    (Text.ofChars (interleave tokens matched pieces).flatten).pieces tokens = .ok pieces :=
  Text.pieces_ofChars_eq_ok_iff.mpr ⟨_, isCut_interleave hmatched hlength hsep hdelim⟩

-- =========================================================== existence

/-- A character that is not `c` in any letter case. -/
def otherChar (c : Char) : Char :=
  if fold c = 'a' then 'b' else 'a'

theorem fold_otherChar_ne (c : Char) : fold (otherChar c) ≠ fold c := by
  have ha : fold 'a' = 'a' := by decide
  have hb : fold 'b' = 'b' := by decide
  unfold otherChar
  split
  next h =>
    rw [h, hb]
    decide
  next h =>
    rw [ha]
    exact fun heq => h heq.symm

/-- A literal does not occur where another character stands. -/
theorem endsAt_otherChar (c : Char) (cs : List Char) : EndsAt (c :: cs) [otherChar c] := by
  refine ⟨List.cons_ne_nil _ _, fun o ho hocc => ?_⟩
  obtain rfl : o = 0 := by
    rw [List.length_singleton] at ho
    omega
  have hagrees := occursAt_zero_iff.mp hocc
  simp only [List.singleton_append, agrees, Bool.and_eq_true, beq_iff_eq] at hagrees
  exact fold_otherChar_ne c hagrees.1.symm

theorem exists_delimited {tokens : List Token} (h : NoEmptyBehind tokens) :
    ∃ pieces, pieces.length = (tokens.filterMap Token.kind?).length ∧ Delimited tokens pieces := by
  induction tokens with
  | nil => exact ⟨[], rfl, fun i _ _ _ ht => by cases ht⟩
  | cons t tokens ih =>
      obtain ⟨hfirst, hrest⟩ := noEmptyBehind_cons_iff.mp h
      obtain ⟨pieces, hlength, hdelim⟩ := ih hrest
      cases t with
      | literal l => exact ⟨pieces, hlength, delimited_literal_iff.mpr hdelim⟩
      | placeholder kind =>
          obtain ⟨p, hp⟩ : ∃ p, ∀ literal, tokens[0]? = some (.literal literal) →
              EndsAt literal p := by
            match tokens, hfirst kind rfl with
            | [], _ => exact ⟨[], fun _ hl => by cases hl⟩
            | .placeholder _ :: _, _ => exact ⟨[], fun _ hl => by cases hl⟩
            | .literal [] :: _, hne => exact absurd rfl hne
            | .literal (c :: cs) :: _, _ =>
                refine ⟨[otherChar c], fun literal hl => ?_⟩
                obtain rfl := Token.literal.inj (Option.some.inj hl)
                exact endsAt_otherChar c cs
          exact ⟨p :: pieces, congrArg (· + 1) hlength, delimited_placeholder_iff.mpr ⟨hp, hdelim⟩⟩

end Unformat
