/-
Texts as sequences of code points. Any text from outside may hold halves
of surrogate pairs standing alone, which no character is: the text to
match, a directive, the strings of a document, an argument of the command
line. Literals and the pieces cut out of a text never do and are plain
lists of characters. The two meet in `Text.ofChars` and `Text.chars?`: a
text has characters exactly when none of its code points stands alone
(`chars?_eq_some_iff`).
-/

namespace Unformat

-- ======================================================= code points

/-- A Unicode code point: a character, or one of the 2048 halves of
surrogate pairs, standing alone. -/
inductive CodePoint where
  | char (c : Char)
  | lone (half : Fin 0x800)
deriving DecidableEq

namespace CodePoint

/-- The number of a code point; the lone halves start at U+D800. -/
def value : CodePoint → Nat
  | .char c => c.toNat
  | .lone half => 0xD800 + half.val

/-- The code point of a number, if it is one. -/
def ofNat? (n : Nat) : Option CodePoint :=
  if h : n.isValidChar then some (.char (Char.ofNatAux n h))
  else if h : 0xD800 ≤ n ∧ n - 0xD800 < 0x800 then some (.lone ⟨n - 0xD800, h.2⟩)
  else none

/-- The character of a code point that is one. -/
def char? : CodePoint → Option Char
  | .char c => some c
  | .lone _ => none

theorem char?_eq_some_iff {p : CodePoint} {c : Char} : p.char? = some c ↔ p = .char c := by
  cases p with
  | char d => simp [char?]
  | lone half => simp [char?]

/-- A code point is that of its number. -/
theorem ofNat?_value (p : CodePoint) : ofNat? p.value = some p := by
  cases p with
  | char c =>
      show ofNat? c.toNat = _
      have hvalid : c.toNat.isValidChar := c.valid
      rw [ofNat?, dif_pos hvalid]
      rfl
  | lone half =>
      have hlt := half.isLt
      have hnot : ¬ (0xD800 + half.val).isValidChar := by
        unfold Nat.isValidChar
        omega
      have hrange : 0xD800 ≤ 0xD800 + half.val ∧ 0xD800 + half.val - 0xD800 < 0x800 := by omega
      show ofNat? (0xD800 + half.val) = _
      rw [ofNat?, dif_neg hnot, dif_pos hrange]
      simp

theorem value_injective {p q : CodePoint} (h : p.value = q.value) : p = q := by
  have hsame := congrArg ofNat? h
  rw [ofNat?_value, ofNat?_value] at hsame
  exact Option.some.inj hsame

end CodePoint

-- ============================================================= texts

/-- A text from outside: any sequence of code points. -/
abbrev Text := List CodePoint

namespace Text

/-- The text made of these characters. -/
def ofChars (cs : List Char) : Text :=
  cs.map .char

/-- The characters of a text, if no half of a pair stands alone in it. -/
def chars? (t : Text) : Option (List Char) :=
  t.mapM CodePoint.char?

@[simp] theorem length_ofChars (cs : List Char) : (ofChars cs).length = cs.length := by
  simp [ofChars]

theorem ofChars_append (cs ds : List Char) : ofChars (cs ++ ds) = ofChars cs ++ ofChars ds :=
  List.map_append

@[simp] theorem chars?_ofChars (cs : List Char) : chars? (ofChars cs) = some cs := by
  induction cs with
  | nil => rfl
  | cons c cs ih =>
      simp only [chars?, ofChars] at ih
      simp [chars?, ofChars, CodePoint.char?, ih]

theorem getElem?_ofChars {cs : List Char} {i : Nat} {c : Char} :
    (ofChars cs)[i]? = some (.char c) ↔ cs[i]? = some c := by
  simp [ofChars]

/-- Only the text made of them has these characters. -/
theorem eq_ofChars_of_chars? {t : Text} {cs : List Char} (h : t.chars? = some cs) :
    t = ofChars cs := by
  induction t generalizing cs with
  | nil =>
      obtain rfl : [] = cs := by simpa [chars?] using h
      rfl
  | cons p t ih =>
      cases p with
      | lone half => simp [chars?, CodePoint.char?] at h
      | char c =>
          simp only [chars?, List.mapM_cons, CodePoint.char?] at h
          cases ht : t.mapM CodePoint.char? with
          | none => simp [ht] at h
          | some ds =>
              obtain rfl : c :: ds = cs := by simpa [ht] using h
              rw [ih ht]
              rfl

theorem chars?_eq_some_iff {t : Text} {cs : List Char} :
    t.chars? = some cs ↔ t = ofChars cs :=
  ⟨eq_ofChars_of_chars?, fun h => h ▸ chars?_ofChars cs⟩

/-- A text in which a half stands alone has no characters. -/
theorem chars?_eq_none_of_lone {t : Text} {half : Fin 0x800} (h : CodePoint.lone half ∈ t) :
    t.chars? = none := by
  cases ht : t.chars? with
  | none => rfl
  | some cs =>
      rw [eq_ofChars_of_chars? ht, ofChars, List.mem_map] at h
      obtain ⟨c, -, hc⟩ := h
      cases hc

/-- A text without characters has a half that stands alone. -/
theorem exists_lone_of_chars? {t : Text} (h : t.chars? = none) :
    ∃ half, CodePoint.lone half ∈ t := by
  induction t with
  | nil => cases h
  | cons p t ih =>
      cases p with
      | lone half => exact ⟨half, List.mem_cons_self⟩
      | char c =>
          simp only [chars?, List.mapM_cons, CodePoint.char?] at h
          cases ht : t.mapM CodePoint.char? with
          | none =>
              obtain ⟨half, hmem⟩ := ih ht
              exact ⟨half, List.mem_cons_of_mem _ hmem⟩
          | some cs => simp [ht] at h

/-- A text has characters exactly if no half stands alone in it. -/
theorem isSome_chars?_iff {t : Text} : t.chars?.isSome ↔ ∀ half, CodePoint.lone half ∉ t := by
  constructor
  · intro h half hmem
    rw [chars?_eq_none_of_lone hmem] at h
    cases h
  · intro h
    refine Option.isSome_iff_ne_none.mpr fun hnone => ?_
    obtain ⟨half, hmem⟩ := exists_lone_of_chars? hnone
    exact h half hmem

theorem ofChars_injective {cs ds : List Char} (h : ofChars cs = ofChars ds) : cs = ds := by
  have := congrArg chars? h
  simpa using this

end Text

end Unformat
