/-
What becomes of a walk when its tokens or its text go on
(`pieces_of_more`). Two runs are compared, the second with more of one
of them, and neither says anything about the other's remaining input.

More tokens change nothing once the walk has failed, unless it failed
for what was left of the text in the end (`Pieces.walk_append_tokens`).
Only a placeholder that is the last token looks at what follows it, and
the walk does not fail there.

More text never moves a literal that was found, since it stays at its
leftmost place (`Literal.offset?_append_right`). So both runs pass the
same tokens, and `Grown` says what that makes of the answer:

- a failure at a token that was reached is settled;
- what was left over in the end is left over with the rest behind it;
- a last placeholder takes the rest as well;
- behind a last literal the rest is left over;
- a literal that was not found may be found in the rest, and then
  nothing is known.
-/
import Unformat.Proofs.Cut.Pieces

namespace Unformat

open Literal

-- ============================================== statement vocabulary

/-- The last token is a placeholder. -/
def EndsOpen (tokens : List Token) : Prop :=
  ∃ kind, tokens.getLast? = some (.placeholder kind)

namespace Pieces

/-- What the walk answers first, and what it answers when the text goes
on with `extra`. -/
inductive Grown (tokens : List Token) (extra : List Char) :
    (answer later : Except Mismatch (List (List Char))) → Prop where
  | settled {cause : Mismatch} (hcause : cause.reason ∈ [.unexpectedText, .emptyValue, .arity]) :
      Grown tokens extra (.error cause) (.error cause)
  | left (rest : List Char) :
      Grown tokens extra (.error (.trailingInput rest)) (.error (.trailingInput (rest ++ extra)))
  | taken (hopen : EndsOpen tokens) (front : List (List Char)) (last : List Char) :
      Grown tokens extra (.ok (front ++ [last])) (.ok (front ++ [last ++ extra]))
  | closed (hclosed : ¬ EndsOpen tokens) (pieces : List (List Char)) :
      Grown tokens extra (.ok pieces)
        (if extra = [] then .ok pieces else .error (.trailingInput extra))
  | unfound {literal : List Char} {offset : Nat} {later : Except Mismatch (List (List Char))} :
      Grown tokens extra (.error (.literalNotFound literal offset)) later

-- ========================================================= more tokens

variable {tokens : List Token} {ahead extra : List Char}

/-- A failure at a token does not depend on the tokens behind it. -/
theorem walk_append_tokens {offset index : Nat} {waiting : Bool} {cause : Mismatch}
    (h : walk tokens offset index waiting ahead = .error cause)
    (hcause : cause.reason ∈ [.literalNotFound, .unexpectedText, .emptyValue, .arity])
    (more : List Token) :
    walk (tokens ++ more) offset index waiting ahead = .error cause := by
  fun_induction walk tokens offset index waiting ahead with
  -- no token is left, and a failure now is for the text that is left
  | case1 => cases h
  | case2 =>
      obtain rfl := Except.error.inj h
      simp [Mismatch.reason] at hcause
  -- a literal that fails the walk, or has its place right ahead or further on
  | case3 _ _ _ _ _ _ hk =>
      simp only [List.cons_append, walk, hk]
      exact h
  | case4 _ _ _ _ _ hk =>
      simp only [List.cons_append, walk, hk, if_true]
      exact h
  | case5 _ _ _ _ _ _ hwaiting hk _ ih =>
      simp only [List.cons_append, walk, hk, if_true, hwaiting]
      exact ih h
  | case6 _ _ _ _ _ _ hk _ _ h0 ih =>
      simp only [List.cons_append, walk, hk, h0, if_false, if_true]
      exact map_eq_error_iff.mpr (ih (map_eq_error_iff.mp h))
  | case7 _ _ _ _ _ _ _ hk _ h0 hwaiting =>
      simp only [List.cons_append, walk, hk, h0, if_false, hwaiting]
      exact h
  -- a placeholder behind another, the last one, or one in front of other tokens
  | case8 =>
      simp only [List.cons_append, walk, if_true]
      exact h
  | case9 => cases h
  | case10 _ _ _ _ _ _ hwaiting hlast ih =>
      have hmore : _ ++ more ≠ [] := fun happend => hlast (List.append_eq_nil_iff.mp happend).1
      simp only [List.cons_append, walk, hwaiting, if_false, hmore]
      exact ih h

-- =========================================================== more text

/-- A token in front, with a piece or without one, leaves the last token
what it is if there is one. -/
theorem endsOpen_cons_iff {t : Token} (h : tokens ≠ [] ∨ ∃ l, t = .literal l) :
    EndsOpen (t :: tokens) ↔ EndsOpen tokens := by
  cases tokens with
  | nil =>
      obtain ⟨l, rfl⟩ := h.resolve_left fun hne => hne rfl
      simp [EndsOpen]
  | cons t' tokens => simp [EndsOpen, List.getLast?_cons_cons]

namespace Grown

variable {answer later : Except Mismatch (List (List Char))}

/-- What is passed in front changes nothing in how an answer grows. -/
theorem cons {t : Token} (ht : tokens ≠ [] ∨ ∃ l, t = .literal l)
    (h : Grown tokens extra answer later) : Grown (t :: tokens) extra answer later := by
  cases h with
  | settled hcause => exact .settled hcause
  | left rest => exact .left rest
  | taken hopen front last => exact .taken ((endsOpen_cons_iff ht).mpr hopen) front last
  | closed hclosed pieces => exact .closed (mt (endsOpen_cons_iff ht).mp hclosed) pieces
  | unfound => exact .unfound

/-- A piece in front changes nothing in how an answer grows. -/
theorem map_cons (gap : List Char) (h : Grown tokens extra answer later) :
    Grown tokens extra (answer.map (gap :: ·)) (later.map (gap :: ·)) := by
  cases h with
  | settled hcause => exact .settled hcause
  | left rest => exact .left rest
  | taken hopen front last => exact Grown.taken hopen (gap :: front) last
  | closed hclosed pieces =>
      have hgrown : Grown tokens extra _ _ := .closed hclosed (gap :: pieces)
      by_cases hextra : extra = []
      · simpa [hextra, Except.map] using hgrown
      · simpa [hextra, Except.map] using hgrown
  | unfound => exact .unfound

theorem later_of_failed {cause : Mismatch} (h : Grown tokens extra (.error cause) later)
    (hcause : cause.reason ∈ [.unexpectedText, .emptyValue, .arity]) :
    later = .error cause := by
  cases h with
  | settled _ => rfl
  | left rest => simp [Mismatch.reason] at hcause
  | unfound => simp [Mismatch.reason] at hcause

theorem later_of_left {cause : Mismatch} (h : Grown tokens extra (.error cause) later)
    (hcause : cause.reason = .trailingInput) :
    ∃ rest, cause = .trailingInput rest ∧ later = .error (.trailingInput (rest ++ extra)) := by
  cases h with
  | settled hfailed => simp [hcause] at hfailed
  | left rest => exact ⟨rest, rfl, rfl⟩
  | unfound => cases hcause

theorem later_of_open {pieces : List (List Char)} (h : Grown tokens extra (.ok pieces) later)
    (hopen : EndsOpen tokens) :
    ∃ front last, pieces = front ++ [last] ∧ later = .ok (front ++ [last ++ extra]) := by
  cases h with
  | taken _ front last => exact ⟨front, last, rfl, rfl⟩
  | closed hclosed _ => exact absurd hopen hclosed

theorem later_of_closed {pieces : List (List Char)} (h : Grown tokens extra (.ok pieces) later)
    (hclosed : ¬ EndsOpen tokens) (hextra : extra ≠ []) :
    later = .error (.trailingInput extra) := by
  cases h with
  | taken hopen _ _ => exact absurd hopen hclosed
  | closed _ _ => exact if_neg hextra

end Grown

section Found

variable {literal : List Char} {k : Nat}

/-- More text leaves what stands in front of a found literal. -/
theorem take_append_of_offset? (hk : offset? literal ahead = some k) (extra : List Char) :
    (ahead ++ extra).take k = ahead.take k :=
  List.take_append_of_le_length
    (Nat.le_of_add_right_le (offset?_eq_some_iff.mp hk).occurs.add_length_le)

/-- More text comes behind what stands behind a found literal. -/
theorem drop_append_of_offset? (hk : offset? literal ahead = some k) (extra : List Char) :
    (ahead ++ extra).drop (k + literal.length) = ahead.drop (k + literal.length) ++ extra :=
  List.drop_append_of_le_length (offset?_eq_some_iff.mp hk).occurs.add_length_le

end Found

/-- How the answer of the walk grows when the text goes on. Every literal
that is found is found again at the same place, so that the two runs pass
the same tokens side by side. -/
theorem walk_append_text (tokens : List Token) (offset index : Nat) (waiting : Bool)
    (ahead extra : List Char) :
    Grown tokens extra (walk tokens offset index waiting ahead)
      (walk tokens offset index waiting (ahead ++ extra)) := by
  fun_induction walk tokens offset index waiting ahead with
  -- no token is left
  | case1 =>
      have hclosed : ¬ EndsOpen [] := by simp [EndsOpen]
      simpa only [walk, List.nil_append] using Grown.closed hclosed []
  | case2 _ _ _ ahead hahead => simpa [walk, hahead] using Grown.left ahead
  -- a literal that fails the walk, or has its place right ahead or further on
  | case3 => exact .unfound
  | case4 _ _ _ _ _ hk =>
      simp only [walk, offset?_append_right hk, if_true]
      exact .settled (by simp [Mismatch.reason])
  | case5 l _ _ _ _ _ hwaiting hk _ ih =>
      simp only [walk, offset?_append_right hk, if_true, hwaiting,
        drop_append_of_offset? hk extra]
      exact ih.cons (.inr ⟨l, rfl⟩)
  | case6 l _ _ _ ahead k hk _ _ h0 ih =>
      simp only [walk, offset?_append_right hk, h0, if_false, if_true,
        take_append_of_offset? hk extra, drop_append_of_offset? hk extra]
      exact (ih.cons (.inr ⟨l, rfl⟩)).map_cons (ahead.take k)
  | case7 _ _ _ _ _ _ _ hk _ h0 hwaiting =>
      simp only [walk, offset?_append_right hk, h0, if_false, hwaiting,
        take_append_of_offset? hk extra]
      exact .settled (by simp [Mismatch.reason])
  -- a placeholder behind another, the last one, or one in front of other tokens
  | case8 =>
      simp only [walk, if_true]
      exact .settled (by simp [Mismatch.reason])
  | case9 kind _ _ _ ahead hwaiting =>
      have hopen : EndsOpen [.placeholder kind] := ⟨kind, rfl⟩
      simpa [walk, hwaiting] using Grown.taken hopen [] ahead
  | case10 _ _ _ _ _ _ hwaiting hlast ih =>
      simp only [walk, hwaiting, if_false, hlast]
      exact ih.cons (.inl hlast)

end Pieces

-- ============================================================== results

/-- Failures are final, and a text is cut as it comes. A failure at a
token stays the same if more tokens follow, and one at a place in the
text stays the same if more text follows; what was left over then is left
over with that text behind it. If a text is cut and the last token is a
placeholder, its piece takes what follows; if there is no last token or
it is a literal, what follows is left over. -/
theorem pieces_of_more (tokens more : List Token) (cs extra : List Char) :
    (∀ cause, (Text.ofChars cs).pieces tokens = .error cause →
      cause.reason ∈ [.literalNotFound, .unexpectedText, .emptyValue, .arity] →
      (Text.ofChars cs).pieces (tokens ++ more) = .error cause) ∧
    (∀ cause, (Text.ofChars cs).pieces tokens = .error cause →
      cause.reason ∈ [.unexpectedText, .emptyValue, .arity] →
      (Text.ofChars (cs ++ extra)).pieces tokens = .error cause) ∧
    (∀ cause, (Text.ofChars cs).pieces tokens = .error cause → cause.reason = .trailingInput →
      ∃ rest, cause = .trailingInput rest ∧
        (Text.ofChars (cs ++ extra)).pieces tokens = .error (.trailingInput (rest ++ extra))) ∧
    (∀ pieces kind, (Text.ofChars cs).pieces tokens = .ok pieces →
      tokens.getLast? = some (.placeholder kind) →
      ∃ front last, pieces = front ++ [last] ∧
        (Text.ofChars (cs ++ extra)).pieces tokens = .ok (front ++ [last ++ extra])) ∧
    (∀ pieces, (Text.ofChars cs).pieces tokens = .ok pieces →
      (tokens = [] ∨ ∃ l, tokens.getLast? = some (.literal l)) → extra ≠ [] →
      (Text.ofChars (cs ++ extra)).pieces tokens = .error (.trailingInput extra)) := by
  simp only [Text.pieces_ofChars]
  have hgrown : Pieces.Grown tokens extra (pieces tokens cs) (pieces tokens (cs ++ extra)) :=
    Pieces.walk_append_text tokens 0 0 false cs extra
  refine ⟨fun cause h hcause => Pieces.walk_append_tokens h hcause more, fun cause h hcause => ?_,
    fun cause h hcause => ?_, fun pieces kind h hlast => ?_, fun pieces h hlast hextra => ?_⟩
  · rw [h] at hgrown
    exact hgrown.later_of_failed hcause
  · rw [h] at hgrown
    exact hgrown.later_of_left hcause
  · rw [h] at hgrown
    exact hgrown.later_of_open ⟨kind, hlast⟩
  · rw [h] at hgrown
    refine hgrown.later_of_closed ?_ hextra
    rintro ⟨kind, hopen⟩
    rcases hlast with rfl | ⟨l, hlast⟩
    · cases hopen
    · cases hlast.symm.trans hopen

-- a literal that was not found may still come, and then anything may happen
example : pieces [.placeholder .string, .literal ['/', '/']] ['a', '/']
      = .error (.literalNotFound ['/', '/'] 0) ∧
    pieces [.placeholder .string, .literal ['/', '/']] ['a', '/', '/'] = .ok [['a']] := by
  decide

end Unformat
