/-
Texts that differ by the blanks around them and by the case of letters
below U+0080. All of them have one bare text, which is left without the
blanks at the two ends and in small letters (`Respelled.bare_eq`), and
every text is spelled from its bare text (`bare_respelled`). So a text
that is bare itself is spelled in those texts that it is left of
(`respelled_iff`).
-/
import Unformat.Text.Blank
import Unformat.Text.Lower

namespace Unformat

-- ============================================== statement vocabulary

namespace Text

/-- The second text is the first one with some letters below U+0080 made
small or capital. -/
inductive Recased : Text → Text → Prop where
  | nil : Recased [] []
  | same (p : CodePoint) {t u : Text} : Recased t u → Recased (p :: t) (p :: u)
  | small (c : Char) {t u : Text} : Recased t u → Recased (.char c :: t) (.char c.toLower :: u)
  | capital (c : Char) {t u : Text} : Recased t u → Recased (.char c :: t) (.char c.toUpper :: u)

/-- The second text is the first one with some letters made small or
capital, and with blanks around it. -/
def Respelled (t u : Text) : Prop :=
  ∃ before spelled after, u = before ++ spelled ++ after ∧ t.Recased spelled ∧
    (∀ p ∈ before, p.isBlank = true) ∧ ∀ p ∈ after, p.isBlank = true

end Text

-- ======================================================= small letters

theorem toLower_toLower : ∀ c : Char, c.toLower.toLower = c.toLower :=
  forall_letters (by decide +kernel) fun _ hsmall _ => by rw [hsmall, hsmall]

theorem toLower_toUpper : ∀ c : Char, c.toUpper.toLower = c.toLower :=
  forall_letters (by decide +kernel) fun _ _ hcapital => by rw [hcapital]

/-- A character is its small letter or the capital one of that. -/
theorem eq_toLower_or : ∀ c : Char, c = c.toLower ∨ c = c.toLower.toUpper :=
  forall_letters (by decide +kernel) fun _ hsmall _ => .inl hsmall.symm

namespace CodePoint

/-- A code point, as a small letter if it is a letter below U+0080. -/
def small : CodePoint → CodePoint
  | .char c => .char c.toLower
  | .lone half => .lone half

/-- No letter is blank. -/
theorem isBlank_small (p : CodePoint) : p.small.isBlank = p.isBlank := by
  cases p with
  | lone half => rfl
  | char c =>
      refine forall_letters (P := fun c => (small (.char c)).isBlank = isBlank (.char c))
        (by decide +kernel) (fun c hsmall _ => ?_) c
      rw [small, hsmall]

end CodePoint

-- ========================================================== bare texts

namespace Text

variable {t u : Text} {word : List Char}

/-- What is left of a text without the blanks at its two ends, in small
letters. -/
def bare (t : Text) : Text :=
  t.strip.map CodePoint.small

/-- Blanks are stripped before or after letters are made small. -/
theorem bare_eq_strip (t : Text) : t.bare = strip (t.map CodePoint.small) :=
  (strip_map CodePoint.isBlank_small t).symm

theorem Recased.map_small_eq (h : t.Recased u) :
    u.map CodePoint.small = t.map CodePoint.small := by
  induction h with
  | nil => rfl
  | same p _ ih => rw [List.map_cons, List.map_cons, ih]
  | small c _ ih => simp only [List.map_cons, CodePoint.small, toLower_toLower, ih]
  | capital c _ ih => simp only [List.map_cons, CodePoint.small, toLower_toUpper, ih]

/-- Every text is its small letters, with some of them made capital. -/
theorem map_small_recased (t : Text) : Recased (t.map CodePoint.small) t := by
  induction t with
  | nil => exact .nil
  | cons p t ih =>
      cases p with
      | lone half => exact .same _ ih
      | char c =>
          rcases eq_toLower_or c with hsmall | hcapital
          · rw [List.map_cons, CodePoint.small, ← hsmall]
            exact .same _ ih
          · have hcons := Recased.capital c.toLower ih
            rwa [← hcapital] at hcons

/-- What is left of a text does not depend on how it is spelled. -/
theorem Respelled.bare_eq (h : t.Respelled u) : u.bare = t.bare := by
  obtain ⟨before, spelled, after, rfl, hcase, hbefore, hafter⟩ := h
  rw [bare, strip_around hbefore hafter, ← bare, bare_eq_strip, hcase.map_small_eq,
    ← bare_eq_strip]

theorem bare_respelled (t : Text) : t.bare.Respelled t := by
  obtain ⟨before, after, htext, hbefore, hafter⟩ := exists_blanks_around_strip t
  exact ⟨before, t.strip, after, htext, t.strip.map_small_recased, hbefore, hafter⟩

theorem respelled_iff (hbare : t.bare = t) : t.Respelled u ↔ u.bare = t := by
  constructor
  · intro h
    rw [h.bare_eq, hbare]
  · intro h
    rw [← h]
    exact u.bare_respelled

theorem chars?_map_small (t : Text) :
    chars? (t.map CodePoint.small) = t.chars?.map (List.map Char.toLower) := by
  induction t with
  | nil => rfl
  | cons p t ih =>
      cases p with
      | lone half => rfl
      | char c =>
          simp only [chars?, List.map_cons, List.mapM_cons] at ih ⊢
          rw [ih]
          cases t.mapM CodePoint.char? <;> rfl

/-- What is left consists of these characters if they are the small
letters of those that stand between the blanks. -/
theorem bare_eq_ofChars_iff :
    t.bare = ofChars word ↔ ∃ cs, t.strip = ofChars cs ∧ cs.map Char.toLower = word := by
  rw [← chars?_eq_some_iff, bare, chars?_map_small, Option.map_eq_some_iff]
  simp only [chars?_eq_some_iff]

end Text

end Unformat
