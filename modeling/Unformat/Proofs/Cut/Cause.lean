/-
What a cause tells of the tokens. The walk fails at one token, or for
what is left behind the last one, and the state in which it does so is
told by the tokens that it has passed (`Pieces.Passed`): a placeholder
is waiting if it was the last of them, and all others have their pieces.
So each failure has its grounds in the tokens, whatever the text is
(`Pieces.grounds_of_walk`). A text that is not even walked through has a
half of a surrogate pair in it (`Text.grounds_of_pieces`).

There is no converse, as no tokens make every text fail.
-/
import Unformat.Proofs.Cut.Growth

namespace Unformat

namespace Pieces

-- ============================================== statement vocabulary

/-- What tokens have in them for a walk to fail for a cause. Causes that
come up only when pieces are read have no grounds. -/
inductive Grounds (tokens : List Token) : Mismatch → Prop where
  | literalNotFound {literal : List Char} (hmem : .literal literal ∈ tokens) (offset : Nat) :
      Grounds tokens (.literalNotFound literal offset)
  | unexpectedText {front back : List Token} {literal : List Char}
      (htokens : tokens = front ++ .literal literal :: back) (hclosed : ¬ EndsOpen front)
      (gap : List Char) : Grounds tokens (.unexpectedText gap literal)
  | emptyValue {front back : List Token} {kind : Kind} {literal : List Char}
      (htokens : tokens = front ++ .placeholder kind :: .literal literal :: back) :
      Grounds tokens (.emptyValue (front.filterMap Token.kind?).length literal)
  | unseparated {front back : List Token} {kind kind' : Kind}
      (htokens : tokens = front ++ .placeholder kind :: .placeholder kind' :: back) :
      Grounds tokens (.unseparated (front.filterMap Token.kind?).length)
  | trailingInput (hclosed : ¬ EndsOpen tokens) (rest : List Char) :
      Grounds tokens (.trailingInput rest)

namespace Grounds

variable {tokens : List Token} {cause : Mismatch}

theorem reason_mem (h : Grounds tokens cause) :
    cause.reason ∈ [.literalNotFound, .unexpectedText, .emptyValue, .arity, .trailingInput] := by
  cases h <;> simp [Mismatch.reason]

theorem of_unexpectedText (h : Grounds tokens cause) (hreason : cause.reason = .unexpectedText) :
    ∃ front literal back, tokens = front ++ .literal literal :: back ∧ ¬ EndsOpen front ∧
      ∃ gap, cause = .unexpectedText gap literal := by
  cases h with
  | unexpectedText htokens hclosed gap => exact ⟨_, _, _, htokens, hclosed, gap, rfl⟩
  | _ => cases hreason

theorem of_emptyValue (h : Grounds tokens cause) (hreason : cause.reason = .emptyValue) :
    ∃ front kind literal back, tokens = front ++ .placeholder kind :: .literal literal :: back ∧
      cause = .emptyValue (front.filterMap Token.kind?).length literal := by
  cases h with
  | emptyValue htokens => exact ⟨_, _, _, _, htokens, rfl⟩
  | _ => cases hreason

theorem of_arity (h : Grounds tokens cause) (hreason : cause.reason = .arity) :
    ∃ front kind kind' back,
      tokens = front ++ .placeholder kind :: .placeholder kind' :: back ∧
      cause = .unseparated (front.filterMap Token.kind?).length := by
  cases h with
  | unseparated htokens => exact ⟨_, _, _, _, htokens, rfl⟩
  | _ => cases hreason

theorem of_trailingInput (h : Grounds tokens cause) (hreason : cause.reason = .trailingInput) :
    ¬ EndsOpen tokens := by
  cases h with
  | trailingInput hclosed => exact hclosed
  | _ => cases hreason

end Grounds

-- ====================================================== passed tokens

/-- The state of a walk that has passed some tokens: a placeholder is
waiting if it was the last of them, and all others have been cut. -/
structure Passed (tokens : List Token) (index : Nat) (waiting : Bool) : Prop where
  waiting_iff : waiting = true ↔ EndsOpen tokens
  length_eq : (tokens.filterMap Token.kind?).length = index + waiting.toNat

theorem endsOpen_concat_iff {tokens : List Token} {t : Token} :
    EndsOpen (tokens ++ [t]) ↔ ∃ kind, t = .placeholder kind := by
  unfold EndsOpen
  simp only [List.getLast?_concat, Option.some.injEq]

namespace Passed

variable {tokens : List Token} {index : Nat} {waiting : Bool}

theorem nil : Passed [] 0 false :=
  ⟨by simp [EndsOpen], rfl⟩

/-- Behind a literal nothing is waiting, and what was waiting has its
piece. -/
theorem literal (h : Passed tokens index waiting) (l : List Char) :
    Passed (tokens ++ [.literal l]) (index + waiting.toNat) false := by
  constructor
  · simp [endsOpen_concat_iff]
  · rw [List.filterMap_append, List.length_append, h.length_eq]
    rfl

/-- A placeholder waits. -/
theorem placeholder (h : Passed tokens index false) (kind : Kind) :
    Passed (tokens ++ [.placeholder kind]) index true := by
  constructor
  · simp [endsOpen_concat_iff]
  · rw [List.filterMap_append, List.length_append, h.length_eq]
    rfl

/-- The placeholder that is waiting is the last token, and the others are
in front of it. -/
theorem exists_concat (h : Passed tokens index true) :
    ∃ front kind, tokens = front ++ [.placeholder kind] ∧
      (front.filterMap Token.kind?).length = index := by
  obtain ⟨kind, hlast⟩ := h.waiting_iff.mp rfl
  obtain ⟨front, rfl⟩ := List.getLast?_eq_some_iff.mp hlast
  have hlength := h.length_eq
  rw [List.filterMap_append, List.length_append] at hlength
  exact ⟨front, kind, rfl, Nat.add_right_cancel hlength⟩

theorem not_endsOpen (h : Passed tokens index false) : ¬ EndsOpen tokens :=
  mt h.waiting_iff.mpr Bool.false_ne_true

end Passed

-- =============================================================== the walk

/-- A walk that fails has its grounds in the tokens, those passed and
those still to come. It never waits behind the last token, where a
placeholder takes all that is ahead. -/
theorem grounds_of_walk {tokens : List Token} {offset index : Nat} {waiting : Bool}
    {ahead : List Char} {cause : Mismatch}
    (h : walk tokens offset index waiting ahead = .error cause)
    (hnext : tokens = [] → waiting = false) :
    ∀ passed, Passed passed index waiting → Grounds (passed ++ tokens) cause := by
  fun_induction walk tokens offset index waiting ahead with
  -- no token is left, and nothing is waiting
  | case1 => cases h
  | case2 _ _ waiting ahead =>
      intro passed hpassed
      obtain rfl := Except.error.inj h
      obtain rfl := hnext rfl
      rw [List.append_nil]
      exact .trailingInput hpassed.not_endsOpen ahead
  -- a literal that fails the walk, or is passed, with a piece or without one
  | case3 _ _ offset =>
      intro passed hpassed
      obtain rfl := Except.error.inj h
      exact .literalNotFound (List.mem_append_right _ List.mem_cons_self) offset
  | case4 =>
      intro passed hpassed
      obtain rfl := Except.error.inj h
      obtain ⟨front, kind, rfl, rfl⟩ := hpassed.exists_concat
      exact .emptyValue (List.append_assoc _ _ _)
  | case5 l _ _ _ waiting _ hwaiting _ _ ih =>
      intro passed hpassed
      obtain rfl := Bool.eq_false_iff.mpr hwaiting
      have hgrounds := ih h (fun _ => rfl) _ (hpassed.literal l)
      rw [List.append_assoc] at hgrounds
      exact hgrounds
  | case6 l _ _ _ _ _ _ _ _ _ ih =>
      intro passed hpassed
      have hgrounds := ih (map_eq_error_iff.mp h) (fun _ => rfl) _ (hpassed.literal l)
      rw [List.append_assoc] at hgrounds
      exact hgrounds
  | case7 _ _ _ _ waiting _ _ _ gap _ hwaiting =>
      intro passed hpassed
      obtain rfl := Except.error.inj h
      obtain rfl := Bool.eq_false_iff.mpr hwaiting
      exact .unexpectedText rfl hpassed.not_endsOpen gap
  -- a placeholder behind another, the last one, or one in front of other tokens
  | case8 =>
      intro passed hpassed
      obtain rfl := Except.error.inj h
      obtain ⟨front, kind, rfl, rfl⟩ := hpassed.exists_concat
      exact .unseparated (List.append_assoc _ _ _)
  | case9 => cases h
  | case10 kind _ _ _ waiting _ hwaiting hlast ih =>
      intro passed hpassed
      obtain rfl := Bool.eq_false_iff.mpr hwaiting
      have hgrounds := ih h (absurd · hlast) _ (hpassed.placeholder kind)
      rw [List.append_assoc] at hgrounds
      exact hgrounds

end Pieces

-- ================================================================ texts

/-- A text that is not cut has a half of a pair in it, or the walk
through its characters has its grounds. -/
theorem Text.grounds_of_pieces {tokens : List Token} {t : Text} {cause : Mismatch}
    (h : t.pieces tokens = .error cause) :
    (cause = .unencodable ∧ ∃ half, CodePoint.lone half ∈ t) ∨ Pieces.Grounds tokens cause := by
  unfold Text.pieces at h
  split at h
  · next hchars => exact .inl ⟨(Except.error.inj h).symm, exists_lone_of_chars? hchars⟩
  · exact .inr (Pieces.grounds_of_walk h (fun _ => rfl) [] .nil)

end Unformat
