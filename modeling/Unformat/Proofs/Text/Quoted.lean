/-
Texts between quotation marks read back (`Quoted.read?_write`), and each of
their characters can be shown (`Quoted.isPrintable_of_mem_write`): they
hold no line break, whatever the text holds.

Which of the two marks is used depends on the text, and the mark decides
what is escaped. The reader takes the first character for the mark, so the
choice need not be known to read the text.
-/
import Unformat.Proofs.Text.Escaped

namespace Unformat.Quoted

/-- How texts are written between quotation marks. -/
def escapes : EscapeStyle where
  letters := [('\\', 0x5C), ('\'', 0x27), ('"', 0x22), ('n', 0x0A), ('r', 0x0D), ('t', 0x09)]
  widths := [('x', 2), ('u', 4), ('U', 8)]
  plain c := (CodePoint.char c).isPrintable

/-- The quotation marks. -/
def marks : List Char := ['\'', '"']

/-- The text between two quotation marks, and what follows it. -/
def read? : List Char → Option (Text × List Char)
  | [] => none
  | mark :: cs =>
      if mark ∈ marks then
        (escapes.read? mark cs).bind fun r => (Text.ofNumbers? r.1).map fun t => (t, r.2)
      else none

-- ============================================================= reading

variable {m : Char} {n : Nat}

theorem spells_numbered (hmark : m ∈ marks) (hn : n < 0x110000) :
    escapes.Spells m (numbered n) n := by
  have hslash : m ≠ '\\' := by
    rintro rfl
    exact absurd hmark (by decide)
  unfold numbered
  split
  next hsmall => exact EscapeStyle.spells_digits hslash rfl rfl hsmall
  split
  next hsmall => exact EscapeStyle.spells_digits hslash rfl rfl hsmall
  next => exact EscapeStyle.spells_digits hslash rfl rfl (Nat.lt_trans hn (by decide))

/-- A code point is read as its number. -/
theorem spells_escape (hmark : m ∈ marks) (p : CodePoint) :
    escapes.Spells m (escape m p) p.value := by
  cases p with
  | lone half => exact spells_numbered hmark (CodePoint.value_lt (.lone half))
  | char c =>
      have hslash : m ≠ '\\' := by
        rintro rfl
        exact absurd hmark (by decide)
      have hletter : ∀ letter d : Char, c = d → escapes.letters.lookup letter = some d.toNat →
          escapes.Spells m ['\\', letter] c.toNat := by
        rintro letter d rfl hlookup
        exact EscapeStyle.spells_letter hslash hlookup
      simp only [escape]
      split
      next hescaped =>
        have hall : ('\\' :: marks).all
            (fun d => escapes.letters.lookup d = some d.toNat) = true := by decide
        have hmem : c ∈ '\\' :: marks := by
          rcases hescaped with rfl | rfl
          · exact List.mem_cons_of_mem _ hmark
          · exact List.mem_cons_self
        exact hletter c c rfl (of_decide_eq_true (List.all_eq_true.mp hall c hmem))
      next hplain =>
      split
      next h => exact hletter 'n' '\n' h rfl
      split
      next h => exact hletter 'r' '\r' h rfl
      split
      next h => exact hletter 't' '\t' h rfl
      split
      next hshown =>
        exact EscapeStyle.spells_plain (fun h => hplain (.inl h)) (fun h => hplain (.inr h)) hshown
      · exact spells_numbered hmark (CodePoint.value_lt (.char c))

theorem mark_mem (t : Text) : mark t ∈ marks := by
  unfold mark
  split <;> decide

/-- A text is read as it is written, whatever it holds. -/
theorem read?_write (t : Text) (rest : List Char) : read? (write t ++ rest) = some (t, rest) := by
  have hspells : escapes.SpellsAll (mark t) (t.flatMap (escape (mark t)))
      (t.map CodePoint.value) := by
    rw [List.map_eq_flatMap]
    exact EscapeStyle.spellsAll_flatMap fun p _ => (spells_escape (mark_mem t) p).spellsAll
  have hwrite : write t ++ rest = mark t :: (t.flatMap (escape (mark t)) ++ mark t :: rest) := by
    simp [write]
  rw [hwrite]
  unfold read?
  refine (if_pos (mark_mem t)).trans ?_
  rw [EscapeStyle.read?_of_spellsAll hspells, Option.bind_some]
  simp only [Text.ofNumbers?_map_value, Option.map_some]

-- ========================================================== characters

/-- Visible characters of ASCII can be shown. -/
theorem isPrintable_of_visible {c : Char} (h : isVisibleAscii c = true) :
    (CodePoint.char c).isPrintable = true := by
  have hshown : ∀ n < 0x7F, 0x20 ≤ n → inRanges unprintableRanges n = false := by decide +kernel
  rw [isVisibleAscii, Bool.and_eq_true, decide_eq_true_eq, decide_eq_true_eq] at h
  show (!inRanges unprintableRanges c.toNat) = true
  rw [hshown c.toNat h.2 h.1]
  rfl

theorem isPrintable_of_mem_numbered {c : Char} (h : c ∈ numbered n) :
    (CodePoint.char c).isPrintable = true := by
  apply isPrintable_of_visible
  have hdigits : ∀ letter width, isVisibleAscii letter = true →
      c ∈ '\\' :: letter :: hexDigits width n → isVisibleAscii c = true := by
    intro letter width hletter hc
    rcases List.mem_cons.mp hc with rfl | hc
    · rfl
    · rcases List.mem_cons.mp hc with rfl | hc
      · exact hletter
      · exact visible_of_mem_hexDigits hc
  unfold numbered at h
  split at h
  · exact hdigits 'x' 2 rfl h
  split at h
  · exact hdigits 'u' 4 rfl h
  · exact hdigits 'U' 8 rfl h

theorem isPrintable_of_mem_marks (hmark : m ∈ marks) : (CodePoint.char m).isPrintable = true := by
  have hall : marks.all isVisibleAscii = true := by decide
  exact isPrintable_of_visible (List.all_eq_true.mp hall m hmark)

theorem isPrintable_of_mem_escape {p : CodePoint} {c : Char} (hmark : m ∈ marks)
    (h : c ∈ escape m p) : (CodePoint.char c).isPrintable = true := by
  cases p with
  | lone half => exact isPrintable_of_mem_numbered h
  | char d =>
      have hpair : ∀ letter, (CodePoint.char letter).isPrintable = true → c ∈ ['\\', letter] →
          (CodePoint.char c).isPrintable = true := by
        intro letter hletter hc
        rcases List.mem_cons.mp hc with rfl | hc
        · exact isPrintable_of_visible rfl
        · exact List.mem_singleton.mp hc ▸ hletter
      simp only [escape] at h
      split at h
      next hescaped =>
        refine hpair d ?_ h
        rcases hescaped with rfl | rfl
        · exact isPrintable_of_mem_marks hmark
        · exact isPrintable_of_visible rfl
      split at h
      · exact hpair 'n' (isPrintable_of_visible rfl) h
      split at h
      · exact hpair 'r' (isPrintable_of_visible rfl) h
      split at h
      · exact hpair 't' (isPrintable_of_visible rfl) h
      split at h
      next hshown => exact List.mem_singleton.mp h ▸ hshown
      · exact isPrintable_of_mem_numbered h

/-- A text between quotation marks holds nothing that cannot be shown. -/
theorem isPrintable_of_mem_write {t : Text} {c : Char} (h : c ∈ write t) :
    (CodePoint.char c).isPrintable = true := by
  rcases List.mem_cons.mp h with rfl | h
  · exact isPrintable_of_mem_marks (mark_mem t)
  rcases List.mem_append.mp h with h | h
  · obtain ⟨p, -, hp⟩ := List.mem_flatMap.mp h
    exact isPrintable_of_mem_escape (mark_mem t) hp
  · rw [List.mem_singleton.mp h]
    exact isPrintable_of_mem_marks (mark_mem t)

end Unformat.Quoted
