/-
Tables of case mappings, kept as runs: in a run every character, or
every second one, moves by the same distance. A table is a sorted list
of disjoint runs, and a character outside all of them stays as it is.
Either way a mapped number comes from a run that covers the given one
(`lookup_eq_or`).

What a table does to all characters is told by its runs. If they end
among characters, the table says where each character goes
(`toNat_apply`); if none of them leads from U+0080 on to below it, but
for some pairs, a character from there on stays there, unless it is the
first of a pair and goes to the second (`apply_of_not_ascii`). For the
characters below U+0080 the question is put to each of them
(`forall_ascii`).
-/

namespace Unformat

/-- The code points `first`, `first + step`, … up to `last` move to
`target`, `target + step`, …. -/
structure CaseRun where
  first : Nat
  last : Nat
  step : Nat
  target : Nat

namespace CaseRun

/-- Whether a run moves the code point `n`. -/
def covers (r : CaseRun) (n : Nat) : Bool :=
  r.first ≤ n && n ≤ r.last && (n - r.first) % r.step == 0

/-- Where a run moves the code point `n`. -/
def image (r : CaseRun) (n : Nat) : Nat :=
  r.target + (n - r.first)

/-- Where a sorted table moves the code point `n`: the search ends at
the first run that starts above it. -/
def lookup : List CaseRun → Nat → Nat
  | [], n => n
  | r :: rs, n =>
      if n < r.first then n
      else if r.covers n then r.image n
      else lookup rs n

/-- The character to which a table moves `c`. -/
def apply (runs : List CaseRun) (c : Char) : Char :=
  Char.ofNat (lookup runs c.toNat)

/-- A code point stays, or a run of the table covers it and moves it. -/
theorem lookup_eq_or (runs : List CaseRun) (n : Nat) :
    lookup runs n = n ∨ ∃ r ∈ runs, r.covers n ∧ lookup runs n = r.image n := by
  induction runs with
  | nil => exact Or.inl rfl
  | cons r rs ih =>
      simp only [lookup]
      split
      · exact Or.inl rfl
      · split
        · exact Or.inr ⟨r, List.mem_cons_self, ‹_›, rfl⟩
        · rcases ih with h | ⟨s, hs, hc, h⟩
          · exact Or.inl h
          · exact Or.inr ⟨s, List.mem_cons_of_mem _ hs, hc, h⟩

theorem le_of_covers {r : CaseRun} {n : Nat} (h : r.covers n = true) :
    r.first ≤ n ∧ n ≤ r.last := by
  unfold covers at h
  simp only [Bool.and_eq_true, decide_eq_true_eq] at h
  exact h.1

/-- A run ends among characters, on one side of the lone halves. -/
def endsInChars (r : CaseRun) : Bool :=
  r.target + (r.last - r.first) < 0xD800 ||
    (0xDFFF < r.target && r.target + (r.last - r.first) < 0x110000)

/-- A run leads from U+0080 on to below it only if it moves the first
character of a pair alone, to the second one. -/
def crossesOnly (pairs : List (Char × Char)) (r : CaseRun) : Bool :=
  r.last < 0x80 || 0x80 ≤ r.target ||
    pairs.any fun pair =>
      r.first == pair.1.toNat && r.last == pair.1.toNat && r.target == pair.2.toNat

variable {runs : List CaseRun} {pairs : List (Char × Char)}

/-- A character goes to the one at the place that the table says. -/
theorem toNat_apply (hends : ∀ r ∈ runs, r.endsInChars = true) (c : Char) :
    (apply runs c).toNat = lookup runs c.toNat := by
  have hvalid : (lookup runs c.toNat).isValidChar := by
    rcases lookup_eq_or runs c.toNat with h | ⟨r, hr, hcovers, h⟩
    · rw [h]
      exact c.valid
    · have hle := le_of_covers hcovers
      have hrun := hends r hr
      simp only [endsInChars, Bool.or_eq_true, Bool.and_eq_true, decide_eq_true_eq] at hrun
      rw [h, image]
      rcases hrun with hlow | ⟨hhigh, hlow⟩
      · exact .inl (by omega)
      · exact .inr ⟨by omega, by omega⟩
  unfold apply Char.ofNat
  rw [dif_pos hvalid]
  rfl

/-- From U+0080 on a character goes to one that is there as well, or it
goes the way of a pair. -/
theorem apply_of_not_ascii (hends : ∀ r ∈ runs, r.endsInChars = true)
    (hcross : ∀ r ∈ runs, r.crossesOnly pairs = true) {c : Char} (h : 0x80 ≤ c.toNat) :
    0x80 ≤ (apply runs c).toNat ∨ (c, apply runs c) ∈ pairs := by
  rcases lookup_eq_or runs c.toNat with hstays | ⟨r, hr, hcovers, himage⟩
  · rw [toNat_apply hends, hstays]
    exact .inl h
  · have hle := le_of_covers hcovers
    have hrun := hcross r hr
    simp only [crossesOnly, Bool.or_eq_true, decide_eq_true_eq, List.any_eq_true,
      Bool.and_eq_true, beq_iff_eq] at hrun
    rcases hrun with (hlast | htarget) | ⟨⟨a, b⟩, hpair, ⟨hfirst, hlast⟩, htarget⟩
    · omega
    · rw [toNat_apply hends, himage, image]
      exact .inl (by omega)
    · simp only at hfirst hlast htarget
      obtain rfl : c = a := Char.toNat_inj.mp (by omega)
      have hto : (apply runs c).toNat = b.toNat := by
        rw [toNat_apply hends, himage, image]
        omega
      rw [Char.toNat_inj.mp hto]
      exact .inr hpair

end CaseRun

/-- What holds of the first 128 characters holds of a character below
U+0080. -/
@[elab_as_elim]
theorem forall_ascii {P : Char → Prop} (c : Char) (hc : c.toNat < 0x80)
    (h : ∀ n < 0x80, P (Char.ofNat n)) : P c := by
  have hchar := h c.toNat hc
  rwa [Char.ofNat_toNat] at hchar

end Unformat
