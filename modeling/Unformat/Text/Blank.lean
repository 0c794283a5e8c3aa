/-
Blank code points and how they are stripped from both ends of a text.
Blank is what Unicode calls white space, and the four separators
U+001C to U+001F beside it. A text is what is left of it with blanks
around it (`exists_blanks_around_strip`), and more blanks put around it
leave the same (`strip_around`). Nothing else counts for what is blank,
so a change of other code points may be made before or after
(`strip_map`).
-/
import Unformat.Text.CodePoint

namespace Unformat

/-- The ranges of blank characters. -/
def blankRanges : List (Nat × Nat) :=
  [(0x9, 0xD), (0x1C, 0x20), (0x85, 0x85), (0xA0, 0xA0), (0x1680, 0x1680), (0x2000, 0x200A),
   (0x2028, 0x2029), (0x202F, 0x202F), (0x205F, 0x205F), (0x3000, 0x3000)]

/-- Whether a code point is blank. -/
def CodePoint.isBlank (p : CodePoint) : Bool :=
  blankRanges.any fun r => r.1 ≤ p.value && p.value ≤ r.2

namespace Text

/-- A text without the blanks at its two ends. -/
def strip (t : Text) : Text :=
  ((t.dropWhile CodePoint.isBlank).reverse.dropWhile CodePoint.isBlank).reverse

/-- Blanks stripped from the end alone. -/
theorem dropWhile_reverse_append {t after : Text} (h : ∀ p ∈ after, p.isBlank = true) :
    (t ++ after).reverse.dropWhile CodePoint.isBlank = t.reverse.dropWhile CodePoint.isBlank := by
  rw [List.reverse_append]
  exact List.dropWhile_append_of_pos fun p hp => h p (List.mem_reverse.mp hp)

theorem strip_around {before t after : Text} (hbefore : ∀ p ∈ before, p.isBlank = true)
    (hafter : ∀ p ∈ after, p.isBlank = true) : (before ++ t ++ after).strip = t.strip := by
  unfold strip
  rw [List.append_assoc, List.dropWhile_append_of_pos hbefore, List.dropWhile_append]
  cases hrest : (t.dropWhile CodePoint.isBlank) with
  | nil =>
      have hnone : after.dropWhile CodePoint.isBlank = [] := by
        rw [← List.append_nil after, List.dropWhile_append_of_pos hafter, List.dropWhile_nil]
      rw [List.isEmpty_nil, if_pos rfl, hnone]
  | cons p rest => rw [List.isEmpty_cons, if_neg nofun, dropWhile_reverse_append hafter]

/-- What does not change whether a code point is blank may be done
before or after. -/
theorem strip_map {f : CodePoint → CodePoint} (h : ∀ p, (f p).isBlank = p.isBlank) (t : Text) :
    strip (t.map f) = t.strip.map f := by
  have hcomp : CodePoint.isBlank ∘ f = CodePoint.isBlank := funext h
  simp only [strip, List.dropWhile_map, hcomp, ← List.map_reverse]

theorem exists_blanks_around_strip (t : Text) : ∃ before after, t = before ++ t.strip ++ after ∧
    (∀ p ∈ before, p.isBlank = true) ∧ ∀ p ∈ after, p.isBlank = true := by
  let front := t.dropWhile CodePoint.isBlank
  have hfront : t = t.takeWhile CodePoint.isBlank ++ front :=
    List.takeWhile_append_dropWhile.symm
  have hback : front = t.strip ++ (front.reverse.takeWhile CodePoint.isBlank).reverse := by
    rw [strip, ← List.reverse_append, List.takeWhile_append_dropWhile, List.reverse_reverse]
  refine ⟨t.takeWhile CodePoint.isBlank, (front.reverse.takeWhile CodePoint.isBlank).reverse,
    ?_, fun p hp => ?_, fun p hp => ?_⟩
  · rw [List.append_assoc, ← hback, ← hfront]
  · exact List.all_eq_true.mp List.all_takeWhile p hp
  · exact List.all_eq_true.mp List.all_takeWhile p (List.mem_reverse.mp hp)

end Text

end Unformat
