/-
Where a literal occurs in a text, said without any search: the text
splits there into what stands before, a slice that is the literal up to
case, and what follows. The two readers of literals are tied to it:
`agrees` decides whether the literal occurs in front
(`occursAt_zero_iff`), and `offset?` finds the leftmost occurrence
(`offset?_eq_some_iff`) unless there is none (`offset?_eq_none_iff`); so
it does not see letter case (`offset?_eq_of_sameUpToCase`).

Everything else about occurrences follows from how they behave when the
text grows: in front they move along (`occursAt_append_left`), and at
the far end they are neither made nor lost as long as the text already
reaches as far as the literal (`occursAt_append_right`).
-/
import Mathlib.Data.List.Forall2
import Unformat.Match.Literal

namespace Unformat

-- ====================================================== letter case

/-- Two texts of one length that agree character by character up to
case. -/
def SameUpToCase (as cs : List Char) : Prop :=
  List.Forall₂ (fun a c => fold a = fold c) as cs

namespace SameUpToCase

theorem refl (cs : List Char) : SameUpToCase cs cs :=
  List.forall₂_same.mpr fun _ _ => rfl

theorem length_eq {as cs : List Char} (h : SameUpToCase as cs) : as.length = cs.length :=
  List.Forall₂.length_eq h

theorem symm {as cs : List Char} (h : SameUpToCase as cs) : SameUpToCase cs as :=
  List.Forall₂.flip (h.imp fun _ _ hac => hac.symm)

theorem trans {as bs cs : List Char} (hab : SameUpToCase as bs) (hbc : SameUpToCase bs cs) :
    SameUpToCase as cs := by
  induction hab generalizing cs with
  | nil => exact hbc
  | cons hhead _ ih =>
      obtain ⟨c, cs, hc, htail, rfl⟩ := List.forall₂_cons_left_iff.mp hbc
      exact List.Forall₂.cons (hhead.trans hc) (ih htail)

theorem append {as bs as' bs' : List Char} (ha : SameUpToCase as as')
    (hb : SameUpToCase bs bs') : SameUpToCase (as ++ bs) (as' ++ bs') := by
  induction ha with
  | nil => exact hb
  | cons hhead _ ih => exact List.Forall₂.cons hhead ih

/-- What agrees with two parts splits into two. -/
theorem split {as bs cs : List Char} (h : SameUpToCase (as ++ bs) cs) :
    ∃ as' bs', cs = as' ++ bs' ∧ SameUpToCase as as' ∧ SameUpToCase bs bs' := by
  induction as generalizing cs with
  | nil => exact ⟨[], cs, rfl, refl [], h⟩
  | cons a as ih =>
      obtain ⟨c, cs, hc, htail, rfl⟩ := List.forall₂_cons_left_iff.mp h
      obtain ⟨as', bs', rfl, has, hbs⟩ := ih htail
      exact ⟨c :: as', bs', rfl, List.Forall₂.cons hc has, hbs⟩

end SameUpToCase

/-- Texts agree up to case if they fold to the same text. -/
theorem sameUpToCase_iff_foldAll_eq {cs ds : List Char} :
    SameUpToCase cs ds ↔ foldAll cs = foldAll ds := by
  unfold SameUpToCase foldAll
  rw [← List.forall₂_eq_eq_eq, List.forall₂_map_left_iff, List.forall₂_map_right_iff]

-- ======================================================= occurrence

namespace Literal

/-- A literal occurs in a text at an offset. -/
def OccursAt (literal text : List Char) (offset : Nat) : Prop :=
  ∃ before slice after, text = before ++ slice ++ after ∧ before.length = offset ∧
    SameUpToCase literal slice

variable {literal text : List Char}

/-- An occurrence ends within the text. -/
theorem OccursAt.add_length_le {k : Nat} (h : OccursAt literal text k) :
    k + literal.length ≤ text.length := by
  obtain ⟨before, slice, after, rfl, rfl, hcase⟩ := h
  simp only [List.length_append, hcase.length_eq]
  omega

theorem occursAt_zero_iff_append :
    OccursAt literal text 0 ↔
      ∃ slice after, text = slice ++ after ∧ SameUpToCase literal slice := by
  constructor
  · intro h
    obtain ⟨before, slice, after, rfl, hlen, hcase⟩ := h
    obtain rfl := List.eq_nil_of_length_eq_zero hlen
    exact ⟨slice, after, rfl, hcase⟩
  · intro h
    obtain ⟨slice, after, rfl, hcase⟩ := h
    exact ⟨[], slice, after, rfl, rfl, hcase⟩

/-- To occur in front of a text of its own length is to agree with all of
it. -/
theorem occursAt_zero_iff_sameUpToCase (hlen : literal.length = text.length) :
    OccursAt literal text 0 ↔ SameUpToCase literal text := by
  rw [occursAt_zero_iff_append]
  constructor
  · intro h
    obtain ⟨slice, after, rfl, hcase⟩ := h
    rw [List.length_append, hcase.length_eq] at hlen
    obtain rfl := List.eq_nil_of_length_eq_zero (by omega : after.length = 0)
    rwa [List.append_nil]
  · intro h
    exact ⟨text, [], (List.append_nil text).symm, h⟩

/-- Text in front moves an occurrence along. -/
theorem occursAt_append_left (front : List Char) (k : Nat) :
    OccursAt literal (front ++ text) (front.length + k) ↔ OccursAt literal text k := by
  constructor
  · intro h
    obtain ⟨before, slice, after, htext, hlen, hcase⟩ := h
    rw [List.append_assoc] at htext
    -- the front is the shorter of two prefixes of one text
    obtain ⟨mid, rfl⟩ : front <+: before :=
      List.prefix_of_prefix_length_le ⟨text, rfl⟩ ⟨slice ++ after, htext.symm⟩ (by omega)
    rw [List.append_assoc] at htext
    refine ⟨mid, slice, after, ?_, ?_, hcase⟩
    · rw [List.append_assoc]
      exact List.append_cancel_left htext
    · rw [List.length_append] at hlen
      omega
  · intro h
    obtain ⟨before, slice, after, rfl, rfl, hcase⟩ := h
    exact ⟨front ++ before, slice, after, by simp, by simp, hcase⟩

theorem occursAt_cons_succ (c : Char) (k : Nat) :
    OccursAt literal (c :: text) (k + 1) ↔ OccursAt literal text k := by
  rw [Nat.add_comm]
  exact occursAt_append_left [c] k

/-- Text at the far end makes no new occurrence at an offset from which
the text already reaches as far as the literal. -/
theorem occursAt_append_right {k : Nat} (hk : k + literal.length ≤ text.length)
    (rest : List Char) : OccursAt literal (text ++ rest) k ↔ OccursAt literal text k := by
  constructor
  · intro h
    obtain ⟨before, slice, after, htext, rfl, hcase⟩ := h
    have hlen := hcase.length_eq
    obtain ⟨mid, rfl⟩ : before ++ slice <+: text := by
      refine List.prefix_of_prefix_length_le ⟨after, htext.symm⟩ ⟨rest, rfl⟩ ?_
      rw [List.length_append]
      omega
    exact ⟨before, slice, mid, rfl, rfl, hcase⟩
  · intro h
    obtain ⟨before, slice, after, rfl, rfl, hcase⟩ := h
    exact ⟨before, slice, after ++ rest, by simp, rfl, hcase⟩

/-- Occurrences do not see in which letter case a text is written. -/
theorem OccursAt.of_sameUpToCase {other : List Char} {k : Nat} (h : OccursAt literal text k)
    (hcase : SameUpToCase text other) : OccursAt literal other k := by
  obtain ⟨before, slice, after, rfl, rfl, hslice⟩ := h
  obtain ⟨front, after', rfl, hfront, -⟩ := hcase.split
  obtain ⟨before', slice', rfl, hbefore, hslice'⟩ := hfront.split
  exact ⟨before', slice', after', rfl, hbefore.length_eq.symm, hslice.trans hslice'⟩

/-- Occurrences do not see in which letter case a literal is written. -/
theorem OccursAt.of_literal_sameUpToCase {other : List Char} {k : Nat}
    (h : OccursAt literal text k) (hcase : SameUpToCase literal other) :
    OccursAt other text k := by
  obtain ⟨before, slice, after, htext, hlen, hslice⟩ := h
  exact ⟨before, slice, after, htext, hlen, hcase.symm.trans hslice⟩

-- ========================================================== readers

/-- `agrees` decides whether a literal occurs in front. -/
theorem occursAt_zero_iff : OccursAt literal text 0 ↔ agrees literal text = true := by
  rw [occursAt_zero_iff_append]
  induction literal generalizing text with
  | nil =>
      simp only [agrees, iff_true]
      exact ⟨[], text, rfl, SameUpToCase.refl []⟩
  | cons a literal ih =>
      cases text with
      | nil =>
          simp only [agrees, Bool.false_eq_true, iff_false]
          intro h
          obtain ⟨slice, after, hnil, hcase⟩ := h
          obtain ⟨rfl, -⟩ := List.append_eq_nil_iff.mp hnil.symm
          cases hcase
      | cons c text =>
          simp only [agrees, Bool.and_eq_true, beq_iff_eq, ← ih]
          constructor
          · intro h
            obtain ⟨slice, after, htext, hcase⟩ := h
            obtain ⟨d, slice, hd, htail, rfl⟩ := List.forall₂_cons_left_iff.mp hcase
            obtain ⟨rfl, rfl⟩ := List.cons.inj htext
            exact ⟨hd, slice, after, rfl, htail⟩
          · intro h
            obtain ⟨hc, slice, after, rfl, htail⟩ := h
            exact ⟨c :: slice, after, rfl, List.Forall₂.cons hc htail⟩

theorem occursAt_nil_iff {k : Nat} : OccursAt literal [] k ↔ literal = [] ∧ k = 0 := by
  constructor
  · intro h
    have hle := h.add_length_le
    simp only [List.length_nil] at hle
    exact ⟨List.eq_nil_of_length_eq_zero (by omega), by omega⟩
  · intro h
    obtain ⟨rfl, rfl⟩ := h
    exact occursAt_zero_iff.mpr rfl

/-- An offset at which a literal occurs, and before which it does
not. -/
structure IsLeftmost (literal text : List Char) (k : Nat) : Prop where
  occurs : OccursAt literal text k
  none_before : ∀ j < k, ¬ OccursAt literal text j

theorem IsLeftmost.unique {j k : Nat} (hj : IsLeftmost literal text j)
    (hk : IsLeftmost literal text k) : j = k := by
  rcases Nat.lt_trichotomy j k with hlt | heq | hgt
  · exact absurd hj.occurs (hk.none_before j hlt)
  · exact heq
  · exact absurd hk.occurs (hj.none_before k hgt)

/-- Text at the far end leaves the leftmost occurrence where it is: an
earlier one would end before it, and so within the old text. -/
theorem IsLeftmost.append_right {k : Nat} (h : IsLeftmost literal text k) (rest : List Char) :
    IsLeftmost literal (text ++ rest) k := by
  have hend := h.occurs.add_length_le
  refine ⟨(occursAt_append_right hend rest).mpr h.occurs, fun j hj hocc => ?_⟩
  exact h.none_before j hj ((occursAt_append_right (by omega) rest).mp hocc)

/-- One more character in front, where the literal does not occur,
moves the leftmost occurrence by one. -/
theorem isLeftmost_cons_succ {c : Char} {k : Nat} (hfront : ¬ OccursAt literal (c :: text) 0) :
    IsLeftmost literal (c :: text) (k + 1) ↔ IsLeftmost literal text k := by
  constructor
  · intro h
    obtain ⟨hocc, hnone⟩ := h
    refine ⟨(occursAt_cons_succ c k).mp hocc, fun j hj h => ?_⟩
    exact hnone (j + 1) (by omega) ((occursAt_cons_succ c j).mpr h)
  · intro h
    obtain ⟨hocc, hnone⟩ := h
    refine ⟨(occursAt_cons_succ c k).mpr hocc, fun j hj h => ?_⟩
    cases j with
    | zero => exact hfront h
    | succ j => exact hnone j (by omega) ((occursAt_cons_succ c j).mp h)

/-- `offset?` finds the leftmost occurrence. -/
theorem offset?_eq_some_iff {k : Nat} :
    offset? literal text = some k ↔ IsLeftmost literal text k := by
  induction text generalizing k with
  | nil =>
      simp only [offset?]
      constructor
      · intro h
        obtain ⟨rfl, rfl⟩ : literal = [] ∧ 0 = k := by simpa using h
        exact ⟨occursAt_zero_iff.mpr rfl, fun j hj => absurd hj (by omega)⟩
      · intro h
        obtain ⟨rfl, rfl⟩ := occursAt_nil_iff.mp h.occurs
        rfl
  | cons c text ih =>
      simp only [offset?]
      by_cases hfront : OccursAt literal (c :: text) 0
      · rw [if_pos (occursAt_zero_iff.mp hfront)]
        have h0 : IsLeftmost literal (c :: text) 0 :=
          ⟨hfront, fun j hj => absurd hj (by omega)⟩
        constructor
        · intro h
          obtain rfl := Option.some.inj h
          exact h0
        · intro h
          rw [h0.unique h]
      · rw [if_neg (mt occursAt_zero_iff.mpr hfront), Option.map_eq_some_iff]
        constructor
        · intro h
          obtain ⟨j, hj, rfl⟩ := h
          exact (isLeftmost_cons_succ hfront).mpr (ih.mp hj)
        · intro h
          cases k with
          | zero => exact absurd h.occurs hfront
          | succ k => exact ⟨k, ih.mpr ((isLeftmost_cons_succ hfront).mp h), rfl⟩

/-- `offset?` finds nothing exactly where there is nothing to find. -/
theorem offset?_eq_none_iff :
    offset? literal text = none ↔ ∀ k, ¬ OccursAt literal text k := by
  induction text with
  | nil =>
      simp only [offset?, occursAt_nil_iff]
      constructor
      · rintro h k ⟨rfl, -⟩
        cases h
      · intro h
        rw [if_neg fun hnil => h 0 ⟨hnil, rfl⟩]
  | cons c text ih =>
      simp only [offset?]
      constructor
      · intro h k hk
        split at h
        · cases h
        next hfront =>
          rw [Option.map_eq_none_iff, ih] at h
          cases k with
          | zero => exact hfront (occursAt_zero_iff.mp hk)
          | succ k => exact h k ((occursAt_cons_succ c k).mp hk)
      · intro h
        rw [if_neg (mt occursAt_zero_iff.mpr (h 0)), Option.map_eq_none_iff, ih]
        exact fun k hk => h (k + 1) ((occursAt_cons_succ c k).mpr hk)

/-- What is found in a text is found at the same place when more text
follows. -/
theorem offset?_append_right {k : Nat} (h : offset? literal text = some k) (rest : List Char) :
    offset? literal (text ++ rest) = some k :=
  offset?_eq_some_iff.mpr ((offset?_eq_some_iff.mp h).append_right rest)

/-- The search does not see letter case, neither of the literal nor of
the text. -/
theorem offset?_eq_of_sameUpToCase {literal' text' : List Char}
    (hliteral : SameUpToCase literal literal') (htext : SameUpToCase text text') :
    offset? literal text = offset? literal' text' := by
  have hocc : ∀ k, OccursAt literal text k ↔ OccursAt literal' text' k := by
    intro k
    constructor
    · intro h
      exact (h.of_sameUpToCase htext).of_literal_sameUpToCase hliteral
    · intro h
      exact (h.of_sameUpToCase htext.symm).of_literal_sameUpToCase hliteral.symm
  symm
  cases hk : offset? literal text with
  | none =>
      refine offset?_eq_none_iff.mpr fun k => ?_
      rw [← hocc]
      exact offset?_eq_none_iff.mp hk k
  | some k =>
      obtain ⟨hat, hnone⟩ := offset?_eq_some_iff.mp hk
      refine offset?_eq_some_iff.mpr ⟨(hocc k).mp hat, fun j hj => ?_⟩
      rw [← hocc]
      exact hnone j hj

end Literal

end Unformat
