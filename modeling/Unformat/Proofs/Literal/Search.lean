/-
What the search for a literal answers, said by indices and not by
slices. A literal agrees with a text from an offset on if each of its
characters meets its like up to case, as far behind the offset as it
stands in the literal (`Literal.AgreesFrom`). For a literal that is not
empty this is to occur at the offset (`agreesFrom_iff_occursAt`), and to
agree behind a position is to agree with what the position leaves over
(`agreesFrom_drop`); so the leftmost occurrence there, which `offset?`
finds, is the least offset from the position on at which the literal
agrees (`isLeast_iff_isLeftmost`).

The empty literal is left out of this: it agrees everywhere, also behind
the end of a text. That a whole text is accepted where the search from
its front ends at its end (`span?_zero_eq_whole_iff`) holds without
exception.
-/
import Mathlib.Order.Bounds.Basic
import Unformat.Proofs.Literal.Occurrence

namespace Unformat

namespace Literal

-- ============================================== statement vocabulary

/-- From the offset `k` on a text agrees with a literal, index by index
up to case. -/
def AgreesFrom (literal text : List Char) (k : Nat) : Prop :=
  ∀ i a, literal[i]? = some a → ∃ c, text[k + i]? = some c ∧ fold a = fold c

/-- Start and end of a span, moved along. -/
def shift (pos : Int) (span : Int × Int) : Int × Int :=
  (span.1 + pos, span.2 + pos)

variable {literal text : List Char} {pos k : Nat}

-- ========================================================= by indices

theorem agreesFrom_cons_zero {a c : Char} :
    AgreesFrom (a :: literal) (c :: text) 0 ↔ fold a = fold c ∧ AgreesFrom literal text 0 := by
  constructor
  · intro h
    obtain ⟨d, hd, hfold⟩ := h 0 a rfl
    obtain rfl := Option.some.inj hd
    refine ⟨hfold, fun i b hb => ?_⟩
    have hnext := h (i + 1) b hb
    rwa [← Nat.add_assoc, List.getElem?_cons_succ] at hnext
  · intro h i b hb
    obtain ⟨hfold, hrest⟩ := h
    cases i with
    | zero =>
        obtain rfl := Option.some.inj hb
        exact ⟨c, rfl, hfold⟩
    | succ i =>
        rw [← Nat.add_assoc, List.getElem?_cons_succ]
        exact hrest i b hb

/-- In front of a text the indices say what `agrees` finds by walking
along both. -/
theorem agreesFrom_zero_iff : AgreesFrom literal text 0 ↔ agrees literal text = true := by
  induction literal generalizing text with
  | nil =>
      simp only [agrees, iff_true]
      intro i a ha
      cases ha
  | cons a literal ih =>
      cases text with
      | nil =>
          simp only [agrees, Bool.false_eq_true, iff_false]
          intro h
          obtain ⟨c, hc, -⟩ := h 0 a rfl
          cases hc
      | cons c text =>
          rw [agreesFrom_cons_zero, ih, agrees, Bool.and_eq_true, beq_iff_eq]

/-- What agrees in the rest of a text agrees as much further on in the
text. -/
theorem agreesFrom_drop :
    AgreesFrom literal (text.drop pos) k ↔ AgreesFrom literal text (pos + k) := by
  unfold AgreesFrom
  simp only [List.getElem?_drop, Nat.add_assoc]

/-- A literal with a last character ends within the text. -/
theorem AgreesFrom.add_length_le (h : AgreesFrom literal text k) (hne : literal ≠ []) :
    k + literal.length ≤ text.length := by
  have hpos := List.length_pos_iff.mpr hne
  obtain ⟨c, hc, -⟩ := h (literal.length - 1) _ (List.getElem?_eq_getElem (by omega))
  obtain ⟨hlt, -⟩ := List.getElem?_eq_some_iff.mp hc
  omega

theorem agreesFrom_iff_occursAt (hne : literal ≠ []) :
    AgreesFrom literal text k ↔ OccursAt literal text k := by
  rcases Nat.lt_or_ge text.length k with hlt | hle
  · constructor
    · intro h
      have hend := h.add_length_le hne
      omega
    · intro h
      have hend := h.add_length_le
      omega
  · have hlen : (text.take k).length = k := List.length_take_of_le hle
    calc AgreesFrom literal text k
        ↔ AgreesFrom literal (text.drop k) 0 := by rw [agreesFrom_drop, Nat.add_zero]
      _ ↔ OccursAt literal (text.drop k) 0 := agreesFrom_zero_iff.trans occursAt_zero_iff.symm
      _ ↔ OccursAt literal (text.take k ++ text.drop k) ((text.take k).length + 0) :=
          (occursAt_append_left (text.take k) 0).symm
      _ ↔ OccursAt literal text k := by rw [List.take_append_drop, hlen, Nat.add_zero]

/-- Agreement at or behind a position, told by what stands there. -/
theorem agreesFrom_add_iff (hne : literal ≠ []) :
    AgreesFrom literal text (pos + k) ↔ OccursAt literal (text.drop pos) k := by
  rw [← agreesFrom_drop, agreesFrom_iff_occursAt hne]

/-- The leftmost occurrence in the rest of a text is the least offset of
agreement from there on. -/
theorem isLeast_iff_isLeftmost (hne : literal ≠ []) :
    IsLeast {j | pos ≤ j ∧ AgreesFrom literal text j} (pos + k) ↔
      IsLeftmost literal (text.drop pos) k := by
  constructor
  · intro h
    obtain ⟨hat, hleast⟩ := h
    refine ⟨(agreesFrom_add_iff hne).mp hat.2, fun j hj hocc => ?_⟩
    have hle := hleast ⟨Nat.le_add_right pos j, (agreesFrom_add_iff hne).mpr hocc⟩
    omega
  · intro h
    refine ⟨⟨Nat.le_add_right pos k, (agreesFrom_add_iff hne).mpr h.occurs⟩, ?_⟩
    intro j hj
    obtain ⟨i, rfl⟩ := Nat.exists_eq_add_of_le hj.1
    by_contra hlt
    exact h.none_before i (by omega) ((agreesFrom_add_iff hne).mp hj.2)

-- ========================================================= the search

/-- Behind a position the search goes through the rest of the text,
and behind the end there is nothing to find. -/
theorem span?_eq_map (hne : literal ≠ []) :
    span? literal text pos = (offset? literal (text.drop pos)).map fun k =>
      (((pos + k : Nat) : Int), ((pos + k + literal.length : Nat) : Int)) := by
  rw [span?, if_neg hne, Int.toNat_natCast]
  rcases Nat.le_total pos text.length with hle | hge
  · rw [Nat.min_eq_left hle]
  · have hnone : offset? literal [] = none := by rw [offset?, if_neg hne]
    simp only [Nat.min_eq_right hge, List.drop_length, List.drop_eq_nil_of_le hge, hnone,
      Option.map_none]

/-- The search finds the least offset of agreement. -/
theorem span?_eq_some_iff (hne : literal ≠ []) {span : Int × Int} :
    span? literal text pos = some span ↔
      ∃ s : Nat, IsLeast {j | pos ≤ j ∧ AgreesFrom literal text j} s ∧
        span = ((s : Int), (s : Int) + literal.length) := by
  rw [span?_eq_map hne, Option.map_eq_some_iff]
  constructor
  · intro h
    obtain ⟨k, hk, rfl⟩ := h
    refine ⟨pos + k, (isLeast_iff_isLeftmost hne).mpr (offset?_eq_some_iff.mp hk), ?_⟩
    rw [Int.natCast_add (pos + k)]
  · intro h
    obtain ⟨s, hs, rfl⟩ := h
    obtain ⟨k, rfl⟩ := Nat.exists_eq_add_of_le hs.1.1
    refine ⟨k, offset?_eq_some_iff.mpr ((isLeast_iff_isLeftmost hne).mp hs), ?_⟩
    rw [Int.natCast_add (pos + k)]

/-- The search finds nothing where there is no agreement to find. -/
theorem span?_eq_none_iff (hne : literal ≠ []) :
    span? literal text pos = none ↔ ¬ ∃ j, pos ≤ j ∧ AgreesFrom literal text j := by
  rw [span?_eq_map hne, Option.map_eq_none_iff, offset?_eq_none_iff]
  constructor
  · intro h hsome
    obtain ⟨j, hle, hagrees⟩ := hsome
    obtain ⟨k, rfl⟩ := Nat.exists_eq_add_of_le hle
    exact h k ((agreesFrom_add_iff hne).mp hagrees)
  · intro h k hocc
    exact h ⟨pos + k, Nat.le_add_right pos k, (agreesFrom_add_iff hne).mpr hocc⟩

/-- The search from a position is the search through what the position
leaves over. -/
theorem span?_eq_shift (hne : literal ≠ []) :
    span? literal text pos = (span? literal (text.drop pos) 0).map (shift pos) := by
  rw [← Int.natCast_zero, span?_eq_map hne, span?_eq_map hne, List.drop_zero, Option.map_map]
  congr 1
  funext k
  simp only [Function.comp_apply, shift, Prod.mk.injEq]
  omega

-- ====================================================== the whole text

theorem accept?_eq_some_iff : accept? literal text = some text ↔ SameUpToCase literal text := by
  rw [accept?, sameUpToCase_iff_foldAll_eq]
  simp

theorem accept?_eq_none_iff : accept? literal text = none ↔ ¬ SameUpToCase literal text := by
  rw [accept?, sameUpToCase_iff_foldAll_eq]
  simp

/-- The search covers all of a text if the literal agrees with all of
it. The empty literal is found in front of every text, but reaches its
end only if the text is empty too. -/
theorem span?_zero_eq_whole_iff :
    span? literal text 0 = some (0, (text.length : Int)) ↔ SameUpToCase literal text := by
  by_cases hnil : literal = []
  · subst hnil
    rw [SameUpToCase, List.forall₂_nil_left_iff, span?, if_pos rfl]
    constructor
    · intro h
      obtain ⟨-, hend⟩ := Prod.mk.inj (Option.some.inj h)
      exact List.eq_nil_of_length_eq_zero (by omega)
    · intro h
      subst h
      rfl
  · rw [← Int.natCast_zero, span?_eq_map hnil, Option.map_eq_some_iff, List.drop_zero]
    constructor
    · intro h
      obtain ⟨k, hk, hends⟩ := h
      obtain ⟨hstart, hend⟩ := Prod.mk.inj hends
      obtain rfl : k = 0 := by omega
      have hocc := (offset?_eq_some_iff.mp hk).occurs
      exact (occursAt_zero_iff_sameUpToCase (by omega)).mp hocc
    · intro h
      have hocc := (occursAt_zero_iff_sameUpToCase h.length_eq).mpr h
      refine ⟨0, offset?_eq_some_iff.mpr ⟨hocc, fun j hj => absurd hj (by omega)⟩, ?_⟩
      rw [h.length_eq, Nat.zero_add, Nat.zero_add]

-- ============================================================== result

/-- The search for a literal that is not empty, from any position on,
finds the least offset at which the literal agrees with the text and
ends as far behind it as the literal is long; it finds nothing only if
there is no such offset; and it is the search through what the position
leaves over, moved along. Of every literal, the empty one too, a whole
text is accepted exactly if the search from its front ends at its end. -/
theorem search_and_acceptance (literal text : List Char) :
    (literal ≠ [] → ∀ pos : Nat,
      (∀ span, span? literal text pos = some span ↔
        ∃ s : Nat, IsLeast {j | pos ≤ j ∧ AgreesFrom literal text j} s ∧
          span = ((s : Int), (s : Int) + literal.length)) ∧
      (span? literal text pos = none ↔ ¬ ∃ j, pos ≤ j ∧ AgreesFrom literal text j) ∧
      span? literal text pos = (span? literal (text.drop pos) 0).map (shift pos)) ∧
    (accept? literal text = some text ↔
      span? literal text 0 = some (0, (text.length : Int))) ∧
    (accept? literal text = none ↔
      span? literal text 0 ≠ some (0, (text.length : Int))) := by
  refine ⟨?_, ?_, ?_⟩
  · intro hne pos
    exact ⟨fun _ => span?_eq_some_iff hne, span?_eq_none_iff hne, span?_eq_shift hne⟩
  · rw [accept?_eq_some_iff, span?_zero_eq_whole_iff]
  · rw [accept?_eq_none_iff, Ne, span?_zero_eq_whole_iff]

/-- Case goes beyond the letters of ASCII: in `ok Kſ`, the Kelvin sign
and the long s, `ks` agrees from the sign on. -/
theorem search_and_acceptance_kelvin :
    "ks".toList ≠ [] ∧
      IsLeast {j | 1 ≤ j ∧ AgreesFrom "ks".toList "ok \u212A\u017F".toList j} 3 := by
  have hne : "ks".toList ≠ [] := by decide
  obtain ⟨hfound, -, -⟩ := (search_and_acceptance "ks".toList "ok \u212A\u017F".toList).1 hne 1
  obtain ⟨s, hleast, hspan⟩ := (hfound (3, 5)).mp (by decide +kernel)
  obtain rfl : s = 3 := by
    have hstart := congrArg Prod.fst hspan
    omega
  exact ⟨hne, hleast⟩

end Literal

end Unformat
