/-
Which characters fold to which. Below U+0080 folding takes capital
letters to small ones and leaves all else alone; from U+0080 on it stays
there, but for two characters: the long s folds to `s`, and the Kelvin
sign to `k`. So whatever is said of a character by a property that only
characters below U+0080 have, and neither `s` nor `k` among them, is also
said of the character that it folds to (`apply_fold`), and what folds to a
character below U+0080 other than those two letters is found by a look at
the characters below U+0080 (`mem_of_fold_eq`). Digits, signs and the marks
of exponents and of base sixteen are of this kind.
-/
import Unformat.Text.Fold
import Unformat.Text.Lower

namespace Unformat

-- ============================================================ the table

theorem foldRuns_endsInChars : ∀ r ∈ foldRuns, r.endsInChars = true := by decide +kernel

/-- Two runs lead from U+0080 on to below it. -/
theorem foldRuns_crossesOnly :
    ∀ r ∈ foldRuns, r.crossesOnly [('\u017F', 's'), ('\u212A', 'k')] = true := by
  decide +kernel

/-- From U+0080 on a character folds to one that is there as well, but
for the long s and the Kelvin sign. -/
theorem fold_of_not_ascii {c : Char} (h : 0x80 ≤ c.toNat) :
    0x80 ≤ (fold c).toNat ∨ (c = '\u017F' ∧ fold c = 's') ∨ (c = '\u212A' ∧ fold c = 'k') := by
  rcases CaseRun.apply_of_not_ascii foldRuns_endsInChars foldRuns_crossesOnly h with hstays | hpair
  · exact .inl hstays
  · exact .inr (by simpa [fold] using hpair)

/-- A letter below U+0080 folds alike, small or capital. -/
theorem fold_toLower : ∀ c : Char, fold c.toLower = fold c :=
  forall_letters (by decide +kernel) fun _ hsmall _ => by rw [hsmall]

/-- What tells apart only characters below U+0080, and not `s` and `k`
from others, does not see letter case if it does not see it there. -/
theorem apply_fold {α : Type} (f : Char → α) (other : α)
    (hascii : ∀ n < 0x80, f (fold (Char.ofNat n)) = f (Char.ofNat n))
    (hother : ∀ c : Char, 0x80 ≤ c.toNat → f c = other) (hs : f 's' = other)
    (hk : f 'k' = other) (c : Char) : f (fold c) = f c := by
  rcases Nat.lt_or_ge c.toNat 0x80 with hlt | hge
  · exact forall_ascii c hlt hascii
  · rw [hother c hge]
    rcases fold_of_not_ascii hge with h | ⟨-, h⟩ | ⟨-, h⟩
    · exact hother (fold c) h
    · rw [h, hs]
    · rw [h, hk]

/-- What folds to a character below U+0080 is below it as well, unless
the character is `s` or `k`. -/
theorem mem_of_fold_eq {c m : Char} {ms : List Char}
    (hascii : ∀ n < 0x80, fold (Char.ofNat n) = m → Char.ofNat n ∈ ms)
    (hm : m.toNat < 0x80) (hs : 's' ≠ m) (hk : 'k' ≠ m) (h : fold c = m) : c ∈ ms := by
  rcases Nat.lt_or_ge c.toNat 0x80 with hlt | hge
  · exact forall_ascii (P := fun c => fold c = m → c ∈ ms) c hlt hascii h
  · rcases fold_of_not_ascii hge with hfold | ⟨-, hfold⟩ | ⟨-, hfold⟩
    · rw [h] at hfold
      omega
    · exact absurd (hfold.symm.trans h) hs
    · exact absurd (hfold.symm.trans h) hk

end Unformat
