/-
Two texts that agree up to case are cut alike by tokens that agree up to
case: either there are pieces of both, which agree up to case one by one,
or neither is cut and the causes have one reason (`walk_alike`).

The two walks stay in step. They wait at the same tokens, and as no search
sees letter case (`offset?_eq_of_sameUpToCase`), they find each literal at
the same offset; what is then ahead agrees up to case again, because the
literals are of one length. Only what the causes show may differ, where
they show a part of the text or a literal.

So the slices of the two cuts agree up to case one by one (`pieces_alike`):
they have the same lengths and start at the same offsets.
-/
import Unformat.Proofs.Cut.Pieces

namespace Unformat

open Literal

-- ============================================== statement vocabulary

/-- Two tokens that agree up to case: placeholders of one kind, or
literals that do. -/
inductive Token.Alike : Token → Token → Prop
  | literal {l l' : List Char} (hcase : SameUpToCase l l') : Alike (.literal l) (.literal l')
  | placeholder (kind : Kind) : Alike (.placeholder kind) (.placeholder kind)

/-- Two results of cutting that agree up to case: pieces that do, or
causes under one reason. -/
inductive CutAlike :
    Except Mismatch (List (List Char)) → Except Mismatch (List (List Char)) → Prop
  | ok {pieces pieces' : List (List Char)} (hcase : List.Forall₂ SameUpToCase pieces pieces') :
      CutAlike (.ok pieces) (.ok pieces')
  | error {cause cause' : Mismatch} (hreason : cause.reason = cause'.reason) :
      CutAlike (.error cause) (.error cause')

variable {tokens tokens' : List Token}

-- ============================================================== slices

section Slices

variable {slices slices' : List (List Char)}

/-- Slices that agree up to case have the same lengths. -/
theorem map_length_eq_of_alike (h : List.Forall₂ SameUpToCase slices slices') :
    slices.map List.length = slices'.map List.length := by
  induction h with
  | nil => rfl
  | cons hs _ ih => rw [List.map_cons, List.map_cons, hs.length_eq, ih]

/-- Slices of the same lengths start at the same offsets. -/
theorem sliceStart_eq_of_lengths (h : slices.map List.length = slices'.map List.length)
    (i : Nat) : sliceStart slices i = sliceStart slices' i := by
  unfold sliceStart
  rw [List.length_flatten, List.length_flatten, List.map_take, List.map_take, h]

end Slices

-- ============================================================= tokens

theorem kinds_eq_of_alike (h : List.Forall₂ Token.Alike tokens tokens') :
    tokens.filterMap Token.kind? = tokens'.filterMap Token.kind? := by
  induction h with
  | nil => rfl
  | cons ht _ ih =>
      cases ht with
      | literal hcase => exact ih
      | placeholder kind => exact congrArg (kind :: ·) ih

-- ========================================================== the walks

theorem CutAlike.map_cons {r r' : Except Mismatch (List (List Char))} {gap gap' : List Char}
    (h : CutAlike r r') (hgap : SameUpToCase gap gap') :
    CutAlike (r.map (gap :: ·)) (r'.map (gap' :: ·)) := by
  cases h with
  | ok hcase => exact .ok (.cons hgap hcase)
  | error hreason => exact .error hreason

/-- The walks through tokens that agree up to case stay in step. -/
theorem Pieces.walk_alike (h : List.Forall₂ Token.Alike tokens tokens') (offset index : Nat)
    (waiting : Bool) {ahead ahead' : List Char} (hahead : SameUpToCase ahead ahead') :
    CutAlike (walk tokens offset index waiting ahead)
      (walk tokens' offset index waiting ahead') := by
  induction h generalizing offset index waiting ahead ahead' with
  | nil =>
      cases hahead with
      | nil => exact .ok .nil
      | cons hc hahead => exact .error rfl
  | @cons t t' tokens tokens' ht hrest ih =>
      cases ht with
      | @literal l l' hcase =>
          have hoffset := offset?_eq_of_sameUpToCase hcase hahead
          have hlength : l.length = l'.length := hcase.length_eq
          simp only [walk, ← hoffset, ← hlength]
          cases offset? l ahead with
          | none => exact .error rfl
          | some k =>
              -- what is ahead then agrees again, as the two literals are of one length
              have hnext := List.forall₂_drop (k + l.length) hahead
              cases waiting with
              | false =>
                  by_cases hk : k = 0
                  · simp only [if_pos hk, Bool.false_eq_true, if_false]
                    exact ih _ _ false hnext
                  · simp only [if_neg hk, Bool.false_eq_true, if_false]
                    exact .error rfl
              | true =>
                  by_cases hk : k = 0
                  · simp only [if_pos hk, if_true]
                    exact .error rfl
                  · simp only [if_neg hk, if_true]
                    exact (ih _ _ false hnext).map_cons (List.forall₂_take k hahead)
      | placeholder kind =>
          simp only [walk]
          cases waiting with
          | true => exact .error rfl
          | false =>
              -- the placeholder is the last token of both or of neither
              cases hrest with
              | nil => exact .ok (.cons hahead .nil)
              | cons ht' hrest' => exact ih offset index true hahead

-- ============================================================== cuts

/-- Two cuts whose pieces agree up to case agree slice by slice, because
what stands for two literals agrees up to case like the literals do. -/
theorem IsCut.alike {cs cs' : List Char} {slices slices' : List (List Char)}
    (hcut : IsCut tokens cs slices) (hcut' : IsCut tokens' cs' slices')
    (h : List.Forall₂ Token.Alike tokens tokens')
    (hpieces : List.Forall₂ SameUpToCase (placeholderSlices tokens slices)
      (placeholderSlices tokens' slices')) :
    List.Forall₂ SameUpToCase slices slices' := by
  induction h generalizing cs cs' slices slices' with
  | nil =>
      obtain ⟨-, rfl⟩ := isCut_nil_iff.mp hcut
      obtain ⟨-, rfl⟩ := isCut_nil_iff.mp hcut'
      exact .nil
  | cons ht _ ih =>
      obtain ⟨s, slices, rfl⟩ := hcut.exists_cons
      obtain ⟨s', slices', rfl⟩ := hcut'.exists_cons
      cases ht with
      | @literal l l' hcase =>
          have hs : SameUpToCase l s := hcut.headFits
          have hs' : SameUpToCase l' s' := hcut'.headFits
          exact .cons ((hs.symm.trans hcase).trans hs') (ih hcut.tail hcut'.tail hpieces)
      | placeholder kind =>
          cases hpieces with
          | cons hs hpieces => exact .cons hs (ih hcut.tail hcut'.tail hpieces)

/-- Texts that agree up to case are both cut, slice by slice alike, or are
both not cut for one reason. -/
theorem pieces_alike (h : List.Forall₂ Token.Alike tokens tokens') {cs cs' : List Char}
    (hcase : SameUpToCase cs cs') :
    (∃ slices slices', IsCut tokens cs slices ∧ IsCut tokens' cs' slices' ∧
      (Text.ofChars cs).pieces tokens = .ok (placeholderSlices tokens slices) ∧
      (Text.ofChars cs').pieces tokens' = .ok (placeholderSlices tokens' slices') ∧
      List.Forall₂ SameUpToCase slices slices' ∧
      List.Forall₂ SameUpToCase (placeholderSlices tokens slices)
        (placeholderSlices tokens' slices')) ∨
    ∃ cause cause', (Text.ofChars cs).pieces tokens = .error cause ∧
      (Text.ofChars cs').pieces tokens' = .error cause' ∧ cause.reason = cause'.reason := by
  have hwalks := Pieces.walk_alike h 0 0 false hcase
  rw [← Unformat.pieces, ← Unformat.pieces, ← Text.pieces_ofChars, ← Text.pieces_ofChars] at hwalks
  generalize hr : (Text.ofChars cs).pieces tokens = r at hwalks ⊢
  generalize hr' : (Text.ofChars cs').pieces tokens' = r' at hwalks ⊢
  cases hwalks with
  | ok hpieces =>
      obtain ⟨slices, hcut, rfl⟩ := Text.pieces_ofChars_eq_ok_iff.mp hr
      obtain ⟨slices', hcut', rfl⟩ := Text.pieces_ofChars_eq_ok_iff.mp hr'
      exact .inl ⟨slices, slices', hcut, hcut', rfl, rfl, hcut.alike hcut' h hpieces, hpieces⟩
  | error hreason => exact .inr ⟨_, _, rfl, rfl, hreason⟩

end Unformat
