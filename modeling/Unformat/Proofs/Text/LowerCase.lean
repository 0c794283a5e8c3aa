/-
Lower cases of whole texts. Lower-casing takes each character alone, but
for a capital sigma, which becomes one of two letters by what stands
around it, and a half of a surrogate pair stays as it is
(`Text.LowersTo`). None of that matters for a word of characters below
U+0080 without a `k`: it is a lower case of the texts whose small letters
are the word, and of no others (`Text.LowersTo.eq_ofChars_iff`).
-/
import Unformat.Text.CodePoint
import Unformat.Text.Lower

namespace Unformat

namespace Text

/-- A lower case of a text. What a capital sigma becomes depends on the
letters around it; here it may be either of the two small ones. -/
inductive LowersTo : Text → Text → Prop where
  | nil : LowersTo [] []
  | char (c : Char) {t low : Text} : LowersTo t low →
      LowersTo (.char c :: t) (ofChars (lower c) ++ low)
  | finalSigma {t low : Text} : LowersTo t low →
      LowersTo (.char '\u03A3' :: t) (.char '\u03C2' :: low)
  | lone (half : Fin 0x800) {t low : Text} : LowersTo t low →
      LowersTo (.lone half :: t) (.lone half :: low)

variable {t low : Text} {word cs : List Char}

/-- Every text has a lower case. -/
theorem exists_lowersTo (t : Text) : ∃ low, t.LowersTo low := by
  induction t with
  | nil => exact ⟨[], .nil⟩
  | cons p t ih =>
      obtain ⟨low, hlow⟩ := ih
      cases p with
      | char c => exact ⟨_, .char c hlow⟩
      | lone half => exact ⟨_, .lone half hlow⟩

/-- Characters below U+0080 have their small letters for their only
lower case. -/
theorem LowersTo.eq_of_ascii (h : (ofChars cs).LowersTo low) (hcs : ∀ c ∈ cs, c.toNat < 0x80) :
    low = ofChars (cs.map Char.toLower) := by
  induction cs generalizing low with
  | nil =>
      cases h
      rfl
  | cons c cs ih =>
      obtain ⟨hc, hrest⟩ := List.forall_mem_cons.mp hcs
      cases h with
      | char c hlow =>
          rw [lower_of_ascii hc, ih hlow hrest]
          rfl
      | finalSigma hlow => exact absurd hc (by decide)

/-- A lower case below U+0080, with no `k` in it, is that of a text
which is below U+0080 as well. -/
theorem LowersTo.exists_ascii (h : t.LowersTo low)
    (hlow : ∀ p ∈ low, ∃ c, p = .char c ∧ c.toNat < 0x80 ∧ c ≠ 'k') :
    ∃ cs, t = ofChars cs ∧ ∀ c ∈ cs, c.toNat < 0x80 := by
  induction h with
  | nil => exact ⟨[], rfl, by simp⟩
  | char c _ ih =>
      obtain ⟨hfront, hrest⟩ := List.forall_mem_append.mp hlow
      obtain ⟨cs, rfl, hcs⟩ := ih hrest
      have hc : c.toNat < 0x80 := by
        refine toNat_lt_of_lower fun d hd => ?_
        obtain ⟨e, he, hclean⟩ := hfront _ (List.mem_map_of_mem hd)
        obtain rfl := CodePoint.char.inj he
        exact hclean
      exact ⟨c :: cs, rfl, List.forall_mem_cons.mpr ⟨hc, hcs⟩⟩
  | finalSigma _ _ =>
      obtain ⟨c, hc, hlt, -⟩ := hlow _ List.mem_cons_self
      obtain rfl := CodePoint.char.inj hc
      exact absurd hlt (by decide)
  | lone _ _ _ =>
      obtain ⟨c, hc, -⟩ := hlow _ List.mem_cons_self
      cases hc

/-- So a word below U+0080 without a `k` is a lower case of a text if
the small letters of the text are the word. -/
theorem LowersTo.eq_ofChars_iff (h : t.LowersTo low)
    (hword : ∀ c ∈ word, c.toNat < 0x80 ∧ c ≠ 'k') :
    low = ofChars word ↔ ∃ cs, t = ofChars cs ∧ cs.map Char.toLower = word := by
  constructor
  · intro hlow
    obtain ⟨cs, rfl, hcs⟩ := h.exists_ascii fun p hp => by
      rw [hlow] at hp
      obtain ⟨c, hc, rfl⟩ := List.mem_map.mp hp
      exact ⟨c, rfl, hword c hc⟩
    exact ⟨cs, rfl, ofChars_injective ((h.eq_of_ascii hcs).symm.trans hlow)⟩
  · intro hcs
    obtain ⟨cs, rfl, rfl⟩ := hcs
    refine h.eq_of_ascii fun c hc => toNat_lt_of_toLower ?_
    exact (hword _ (List.mem_map_of_mem hc)).1

end Text

end Unformat
