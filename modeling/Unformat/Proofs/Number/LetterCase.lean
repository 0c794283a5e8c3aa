/-
Numbers are read alike in either letter case. Each reader gives the same
for a text and for the folded text, so it gives the same for two texts
that agree up to case (`Kind.read?_of_sameUpToCase`).

Signs, points and digits fold to themselves, and no other character folds
to any of them; the only letters that a reader knows are the mark of an
exponent, the mark of base sixteen and the digits of base sixteen, and it
knows them in either case. So folding may be moved behind each step of a
reader: what is taken from the front is the same, and what remains is
folded.
-/
import Unformat.Directive.Kind
import Unformat.Proofs.Literal.Folding
import Unformat.Proofs.Literal.Occurrence
import Unformat.Proofs.Number.BaseSixteen

namespace Unformat

@[simp] theorem foldAll_cons (c : Char) (cs : List Char) :
    foldAll (c :: cs) = fold c :: foldAll cs := rfl

-- ========================================================== characters

/-- The marks that readers look for, each with the characters that fold
to it. -/
def marks : List (Char × List Char) :=
  [('-', ['-']), ('+', ['+']), ('.', ['.']), ('0', ['0']), ('x', ['x', 'X']), ('X', []),
   ('e', ['e', 'E']), ('E', [])]

/-- Only these characters fold to a mark. -/
theorem mem_of_fold_eq_mark {c m : Char} (ms : List Char) (hmark : (m, ms) ∈ marks)
    (h : fold c = m) : c ∈ ms := by
  have hall : ∀ e ∈ marks, (∀ n < 0x80, fold (Char.ofNat n) = e.1 → Char.ofNat n ∈ e.2) ∧
      e.1.toNat < 0x80 ∧ 's' ≠ e.1 ∧ 'k' ≠ e.1 := by
    decide
  obtain ⟨hascii, hm, hs, hk⟩ := hall (m, ms) hmark
  exact mem_of_fold_eq hascii hm hs hk h

theorem isDigit_fold (c : Char) : (fold c).isDigit = c.isDigit := by
  refine apply_fold Char.isDigit false (by decide) (fun c hc => ?_) rfl rfl c
  have h9 : '9'.toNat = 57 := rfl
  rw [Bool.eq_false_iff, ne_eq, Char.isDigit_iff_toNat]
  omega

theorem fold_of_isDigit {c : Char} (h : c.isDigit = true) : fold c = c := by
  have hall : c.isDigit = true → fold c = c :=
    forall_ascii c (toNat_lt_of_isDigit h) (by decide)
  exact hall h

/-- A digit of base sixteen has the same value in either case. -/
theorem hexDigit?_fold (c : Char) : hexDigit? (fold c) = hexDigit? c := by
  exact apply_fold hexDigit? none (by decide) (fun _ => hexDigit?_of_not_ascii) rfl rfl c

-- ====================================================== signs and digits

theorem all_isDigit_foldAll (cs : List Char) :
    (foldAll cs).all Char.isDigit = cs.all Char.isDigit := by
  unfold foldAll
  rw [List.all_map]
  exact congrArg cs.all (funext isDigit_fold)

theorem foldAll_of_isDigit {ds : List Char} (h : ∀ c ∈ ds, c.isDigit = true) :
    foldAll ds = ds := by
  unfold foldAll
  rw [List.map_congr_left fun c hc => fold_of_isDigit (h c hc), List.map_id']

/-- No sign is a letter. -/
theorem takeSign_foldAll (cs : List Char) :
    takeSign (foldAll cs) = ((takeSign cs).1, foldAll (takeSign cs).2) := by
  cases cs with
  | nil => rfl
  | cons c cs =>
      by_cases hminus : c = '-'
      · subst hminus
        rfl
      by_cases hplus : c = '+'
      · subst hplus
        rfl
      have hminus' : fold c ≠ '-' := fun h =>
        hminus (List.mem_singleton.mp (mem_of_fold_eq_mark _ (by decide) h))
      have hplus' : fold c ≠ '+' := fun h =>
        hplus (List.mem_singleton.mp (mem_of_fold_eq_mark _ (by decide) h))
      simp [takeSign, hminus, hplus, hminus', hplus']

theorem readInteger?_foldAll (cs : List Char) : readInteger? (foldAll cs) = readInteger? cs := by
  simp only [readInteger?, takeSign_foldAll, all_isDigit_foldAll]
  cases hall : (takeSign cs).2.all Char.isDigit with
  | true => rw [foldAll_of_isDigit (List.all_eq_true.mp hall)]
  | false => simp

theorem readInt64?_foldAll (cs : List Char) : readInt64? (foldAll cs) = readInt64? cs := by
  simp only [readInt64?, takeSign_foldAll, all_isDigit_foldAll]
  cases hall : (takeSign cs).2.all Char.isDigit with
  | true => rw [foldAll_of_isDigit (List.all_eq_true.mp hall)]
  | false => simp

-- ======================================================== base sixteen

theorem dropHexMark_foldAll (cs : List Char) :
    dropHexMark (foldAll cs) = foldAll (dropHexMark cs) := by
  match cs with
  | [] => rfl
  | [c] => simp [dropHexMark, foldAll]
  | c :: d :: cs =>
      by_cases hzero : c = '0'
      · subst hzero
        by_cases hx : d = 'x'
        · subst hx
          rfl
        by_cases hX : d = 'X'
        · subst hX
          rfl
        have hx' : fold d ≠ 'x' := fun h => by
          simpa [hx, hX] using mem_of_fold_eq_mark ['x', 'X'] (by decide) h
        have hX' : fold d ≠ 'X' := fun h => by
          simpa using mem_of_fold_eq_mark [] (by decide) h
        simp [dropHexMark, hx, hX, hx', hX']
      · have hzero' : fold c ≠ '0' := fun h =>
          hzero (List.mem_singleton.mp (mem_of_fold_eq_mark _ (by decide) h))
        simp [dropHexMark, hzero, hzero']

theorem readWord64?_foldAll (cs : List Char) : readWord64? (foldAll cs) = readWord64? cs := by
  have hdigits : ∀ ds n, readHexFrom? n (foldAll ds) = readHexFrom? n ds := fun ds n =>
    readHexFrom?_congr (by simp [foldAll, hexDigit?_fold]) n
  simp only [readWord64?, dropHexMark_foldAll, length_foldAll, hdigits]

theorem readHex?_foldAll (mode : HexReading) (cs : List Char) :
    readHex? mode (foldAll cs) = readHex? mode cs := by
  cases mode with
  | legacy => rw [readHex?_legacy, readHex?_legacy]
  | base16 => simp only [readHex?, readWord64?_foldAll]

-- ============================================================ decimals

namespace Decimal

theorem spanDigits_foldAll (cs : List Char) :
    spanDigits (foldAll cs) = ((spanDigits cs).1, foldAll (spanDigits cs).2) := by
  have hdigit : Char.isDigit ∘ fold = Char.isDigit := funext isDigit_fold
  unfold spanDigits foldAll
  rw [List.takeWhile_map, List.dropWhile_map, hdigit]
  refine Prod.ext ?_ rfl
  exact foldAll_of_isDigit (List.all_eq_true.mp List.all_takeWhile)

theorem spanFraction_foldAll (cs : List Char) :
    spanFraction (foldAll cs) = ((spanFraction cs).1, foldAll (spanFraction cs).2) := by
  cases cs with
  | nil => rfl
  | cons c cs =>
      by_cases hpoint : c = '.'
      · subst hpoint
        exact spanDigits_foldAll cs
      · have hpoint' : fold c ≠ '.' := fun h =>
          hpoint (List.mem_singleton.mp (mem_of_fold_eq_mark _ (by decide) h))
        simp [spanFraction, hpoint, hpoint']

theorem readExponent?_foldAll (cs : List Char) :
    readExponent? (foldAll cs) = readExponent? cs := by
  cases cs with
  | nil => rfl
  | cons c cs =>
      by_cases he : c = 'e'
      · subst he
        exact readInteger?_foldAll cs
      by_cases hE : c = 'E'
      · subst hE
        exact readInteger?_foldAll cs
      have he' : fold c ≠ 'e' := fun h => by
        simpa [he, hE] using mem_of_fold_eq_mark ['e', 'E'] (by decide) h
      have hE' : fold c ≠ 'E' := fun h => by
        simpa using mem_of_fold_eq_mark [] (by decide) h
      simp [readExponent?, he, hE, he', hE']

theorem read?_foldAll (cs : List Char) : read? (foldAll cs) = read? cs := by
  simp only [read?, readUnbounded?, takeSign_foldAll, spanDigits_foldAll, spanFraction_foldAll,
    readExponent?_foldAll]

end Decimal

-- ============================================================== kinds

/-- The kinds of numbers do not see letter case. -/
theorem Kind.read?_of_sameUpToCase {kind : Kind}
    (hkind : kind = .int ∨ kind = .decimal ∨ kind = .hex) {cs ds : List Char}
    (h : SameUpToCase cs ds) (mode : HexReading) :
    kind.read? mode (Text.ofChars cs) = kind.read? mode (Text.ofChars ds) := by
  have hfold := sameUpToCase_iff_foldAll_eq.mp h
  rcases hkind with rfl | rfl | rfl
  · simp only [Kind.read?, Text.chars?_ofChars, Option.bind_some]
    rw [← readInt64?_foldAll cs, hfold, readInt64?_foldAll]
  · simp only [Kind.read?, Text.chars?_ofChars, Option.bind_some]
    rw [← Decimal.read?_foldAll cs, hfold, Decimal.read?_foldAll]
  · simp only [Kind.read?, Text.chars?_ofChars, Option.bind_some]
    rw [← readHex?_foldAll mode cs, hfold, readHex?_foldAll]

end Unformat
