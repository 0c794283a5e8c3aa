/-
Which texts are read as truth values. A text is read if its lower case
is one of two words, and lower-casing takes some characters from far
outside into the alphabet, makes two of one, and leaves to what stands
around a capital sigma which of two letters it becomes
(`Text.LowersTo`). Yet only those texts are read which take one letter
after another from the small and the capital letters of a word
(`Kind.read?_bool_eq_some_iff_follows`): what a character from U+0080 on
becomes is a `k`, which is in neither word, or holds something that is
in neither for not being below U+0080.

The literal of a word is less strict than the truth value. It also takes
a long s for an `s`, since the two fold alike, and nothing else besides
(`Literal.accept?_truthWord_iff_follows`).
-/
import Unformat.Directive.Kind
import Unformat.Proofs.Literal.Folding
import Unformat.Proofs.Literal.Search
import Unformat.Proofs.Text.LowerCase

namespace Unformat

-- ============================================== statement vocabulary

namespace Text

/-- A text that takes one character after another from lists of
choices. -/
def Follows (choices : List (List Char)) (t : Text) : Prop :=
  List.Forall₂ (fun choice p => ∃ c ∈ choice, p = .char c) choices t

end Text

/-- The word of a truth value. -/
def truthWord : Bool → List Char
  | true => "true".toList
  | false => "false".toList

/-- The letters of the word of a truth value, small and capital. -/
def truthLetters : Bool → List (List Char)
  | true => [['t', 'T'], ['r', 'R'], ['u', 'U'], ['e', 'E']]
  | false => [['f', 'F'], ['a', 'A'], ['l', 'L'], ['s', 'S'], ['e', 'E']]

/-- The characters that differ from the letters of the word only by
case. -/
def truthFoldings : Bool → List (List Char)
  | true => [['t', 'T'], ['r', 'R'], ['u', 'U'], ['e', 'E']]
  | false => [['f', 'F'], ['a', 'A'], ['l', 'L'], ['s', 'S', '\u017F'], ['e', 'E']]

-- ============================================================ choices

namespace Text

/-- A word is met letter by letter by the texts that follow the choices
for its letters. -/
theorem forall₂_iff_follows {R : Char → Char → Prop} {word cs : List Char}
    {choices : List (List Char)} (hlen : word.length = choices.length)
    (h : ∀ pair ∈ word.zip choices, ∀ c, R pair.1 c ↔ c ∈ pair.2) :
    List.Forall₂ R word cs ↔ Follows choices (ofChars cs) := by
  have hletters : List.Forall₂ (fun w choice => ∀ c, R w c ↔ c ∈ choice) word choices :=
    List.forall₂_iff_zip.mpr ⟨hlen, fun hmem => h _ hmem⟩
  unfold Follows ofChars
  clear hlen h
  induction hletters generalizing cs with
  | nil => simp
  | cons hhead _ ih =>
      cases cs with
      | nil => simp
      | cons c cs => simp [hhead c, ih]

variable {choices : List (List Char)} {t : Text}

/-- No half of a pair is a choice. -/
theorem Follows.exists_chars (h : t.Follows choices) : ∃ cs, t = ofChars cs := by
  induction h with
  | nil => exact ⟨[], rfl⟩
  | cons hhead _ ih =>
      obtain ⟨c, -, rfl⟩ := hhead
      obtain ⟨cs, rfl⟩ := ih
      exact ⟨c :: cs, rfl⟩

theorem Follows.exists_of_mem (h : t.Follows choices) {p : CodePoint} (hp : p ∈ t) :
    ∃ choice ∈ choices, ∃ c ∈ choice, p = .char c := by
  induction h with
  | nil => cases hp
  | cons hhead _ ih =>
      rcases List.mem_cons.mp hp with rfl | hp
      · exact ⟨_, List.mem_cons_self, hhead⟩
      · obtain ⟨choice, hmem, hchoice⟩ := ih hp
        exact ⟨choice, List.mem_cons_of_mem _ hmem, hchoice⟩

end Text

-- ======================================================== the letters

theorem truthWord_ascii (b : Bool) : ∀ c ∈ truthWord b, c.toNat < 0x80 ∧ c ≠ 'k' := by
  cases b <;> simp [truthWord]

/-- A text has the small letters of a word if it takes the letters of
the word, small or capital. -/
theorem map_toLower_eq_iff_follows {b : Bool} {cs : List Char} :
    cs.map Char.toLower = truthWord b ↔ Text.Follows (truthLetters b) (.ofChars cs) := by
  have hascii : ∀ pair ∈ (truthWord b).zip (truthLetters b), ∀ n < 0x80,
      (pair.1 = (Char.ofNat n).toLower ↔ Char.ofNat n ∈ pair.2) := by
    cases b <;> decide +kernel
  have hsmall : ∀ pair ∈ (truthWord b).zip (truthLetters b),
      pair.1.toNat < 0x80 ∧ ∀ c ∈ pair.2, c.toNat < 0x80 := by
    cases b <;> simp [truthWord, truthLetters]
  have hletters : ∀ pair ∈ (truthWord b).zip (truthLetters b), ∀ c : Char,
      pair.1 = c.toLower ↔ c ∈ pair.2 := by
    intro pair hpair c
    rcases Nat.lt_or_ge c.toNat 0x80 with hlt | hge
    · exact forall_ascii c hlt (hascii pair hpair)
    · obtain ⟨hw, hchoice⟩ := hsmall pair hpair
      constructor
      · intro h
        have hc := toNat_lt_of_toLower (h ▸ hw)
        omega
      · intro h
        have hc := hchoice c h
        omega
  calc cs.map Char.toLower = truthWord b
      ↔ List.Forall₂ (fun w c => w = c.toLower) (truthWord b) cs := by
          rw [eq_comm, ← List.forall₂_eq_eq_eq, List.forall₂_map_right_iff]
    _ ↔ Text.Follows (truthLetters b) (.ofChars cs) :=
          Text.forall₂_iff_follows (by cases b <;> rfl) hletters

/-- A text folds to what a word folds to if it takes the letters of the
word, small or capital, or a long s for an `s`. -/
theorem sameUpToCase_truthWord_iff_follows {b : Bool} {cs : List Char} :
    SameUpToCase (truthWord b) cs ↔ Text.Follows (truthFoldings b) (.ofChars cs) := by
  have hascii : ∀ pair ∈ (truthWord b).zip (truthFoldings b), ∀ n < 0x80,
      (fold pair.1 = fold (Char.ofNat n) ↔ Char.ofNat n ∈ pair.2) := by
    cases b <;> decide +kernel
  have hbeyond : ∀ pair ∈ (truthWord b).zip (truthFoldings b),
      (fold pair.1).toNat < 0x80 ∧ fold pair.1 ≠ 'k' ∧
        (fold pair.1 = 's' ↔ '\u017F' ∈ pair.2) ∧
        pair.2.all (fun c => c.toNat < 0x80 || c == '\u017F') = true := by
    cases b <;> decide +kernel
  refine Text.forall₂_iff_follows (by cases b <;> rfl) fun pair hpair c => ?_
  rcases Nat.lt_or_ge c.toNat 0x80 with hlt | hge
  · exact forall_ascii c hlt (hascii pair hpair)
  · obtain ⟨hw, hk, hs, hchoice⟩ := hbeyond pair hpair
    constructor
    · intro h
      rcases fold_of_not_ascii hge with hfold | ⟨rfl, hfold⟩ | ⟨rfl, hfold⟩
      · rw [h] at hw
        omega
      · exact hs.mp (h.trans hfold)
      · exact absurd (h.trans hfold) hk
    · intro h
      have hchar := List.all_eq_true.mp hchoice c h
      rw [Bool.or_eq_true, decide_eq_true_eq, beq_iff_eq] at hchar
      rcases hchar with hlt | rfl
      · omega
      · rw [hs.mpr h]
        decide +kernel

-- ============================================================ readers

theorem readBool?_eq_some_iff {b : Bool} {cs : List Char} :
    readBool? cs = some b ↔ lowerAll cs = truthWord b := by
  simp only [readBool?]
  by_cases htrue : lowerAll cs = "true".toList
  · rw [if_pos htrue, htrue]
    cases b <;> decide
  · rw [if_neg htrue]
    by_cases hfalse : lowerAll cs = "false".toList
    · rw [if_pos hfalse, hfalse]
      cases b <;> decide
    · rw [if_neg hfalse]
      cases b with
      | true => exact iff_of_false (by simp) htrue
      | false => exact iff_of_false (by simp) hfalse

namespace Kind

variable {mode : HexReading} {t : Text} {b : Bool}

theorem read?_bool_eq_some_iff :
    Kind.bool.read? mode t = some (.bool b) ↔
      ∃ cs, t = .ofChars cs ∧ cs.map Char.toLower = truthWord b := by
  simp only [read?, Option.map_eq_some_iff, Option.bind_eq_some_iff, Value.bool.injEq,
    exists_eq_right, readBool?_eq_some_iff, lowerAll_eq_iff (truthWord_ascii b),
    Text.chars?_eq_some_iff]

theorem read?_bool_eq_none_iff :
    Kind.bool.read? mode t = none ↔ ∀ b, Kind.bool.read? mode t ≠ some (.bool b) := by
  simp only [read?]
  cases t.chars?.bind readBool? with
  | none => simp
  | some b => simp

/-- A text is read as a truth value if it takes the letters of its
word. -/
theorem read?_bool_eq_some_iff_follows :
    Kind.bool.read? mode t = some (.bool b) ↔ t.Follows (truthLetters b) := by
  rw [read?_bool_eq_some_iff]
  constructor
  · intro h
    obtain ⟨cs, rfl, hcs⟩ := h
    exact map_toLower_eq_iff_follows.mp hcs
  · intro h
    obtain ⟨cs, rfl⟩ := h.exists_chars
    exact ⟨cs, rfl, map_toLower_eq_iff_follows.mpr h⟩

/-- Beyond U+0080 there is no letter of either word. -/
theorem read?_bool_eq_none_of_not_ascii {p : CodePoint} (hp : p ∈ t) (hvalue : 0x80 ≤ p.value) :
    Kind.bool.read? mode t = none := by
  refine read?_bool_eq_none_iff.mpr fun b h => ?_
  have hascii : ∀ choice ∈ truthLetters b, ∀ c ∈ choice, c.toNat < 0x80 := by
    cases b <;> simp [truthLetters]
  obtain ⟨choice, hchoice, c, hc, rfl⟩ := (read?_bool_eq_some_iff_follows.mp h).exists_of_mem hp
  exact absurd (hascii choice hchoice c hc) (Nat.not_lt.mpr hvalue)

theorem read?_bool_eq_some_iff_of_lowersTo {low : Text} (h : t.LowersTo low) :
    Kind.bool.read? mode t = some (.bool b) ↔ low = .ofChars (truthWord b) := by
  rw [read?_bool_eq_some_iff, h.eq_ofChars_iff (truthWord_ascii b)]

end Kind

-- ============================================================ literals

namespace Literal

variable {b : Bool} {cs : List Char}

theorem accept?_truthWord_iff_follows :
    accept? (truthWord b) cs = some cs ↔ Text.Follows (truthFoldings b) (.ofChars cs) := by
  rw [accept?_eq_some_iff, sameUpToCase_truthWord_iff_follows]

/-- What is read as a truth value is accepted by the literal of its
word. -/
theorem accept?_of_read?_bool {mode : HexReading}
    (h : Kind.bool.read? mode (.ofChars cs) = some (.bool b)) :
    accept? (truthWord b) cs = some cs := by
  obtain ⟨ds, hds, hlower⟩ := Kind.read?_bool_eq_some_iff.mp h
  obtain rfl := Text.ofChars_injective hds
  rw [accept?_eq_some_iff, ← hlower, SameUpToCase, List.forall₂_map_left_iff]
  exact List.forall₂_same.mpr fun c _ => fold_toLower c

end Literal

-- ============================================================== result

/-- A text is read as a truth value exactly if it takes the letters of
its word, small or capital, and every other text is rejected; so is any
text that goes beyond U+0080, though the lower case of some characters
from there is a letter, and of some is more than one character. Whatever
a capital sigma becomes, the two words are the only lower cases that are
read. The literal of a word accepts what is read as its truth value, and
the literal `false` more than that. -/
theorem Kind.read?_bool_letters (mode : HexReading) (t : Text) :
    (∀ b, Kind.bool.read? mode t = some (.bool b) ↔ t.Follows (truthLetters b)) ∧
    (Kind.bool.read? mode t = none ↔ ∀ b, ¬ t.Follows (truthLetters b)) ∧
    ((∃ p ∈ t, 0x80 ≤ p.value) → Kind.bool.read? mode t = none) ∧
    lower '\u212A' = ['k'] ∧ lower '\u0130' = ['i', '\u0307'] ∧
    (∃ low, t.LowersTo low) ∧
    (∀ low, t.LowersTo low → ∀ b,
      (Kind.bool.read? mode t = some (.bool b) ↔ low = .ofChars (truthWord b))) ∧
    (∀ cs, t = .ofChars cs → ∀ b,
      (Literal.accept? (truthWord b) cs = some cs ↔ t.Follows (truthFoldings b)) ∧
      (Kind.bool.read? mode t = some (.bool b) → Literal.accept? (truthWord b) cs = some cs)) ∧
    Literal.accept? (truthWord false) "fal\u017Fe".toList = some "fal\u017Fe".toList ∧
    Kind.bool.read? mode (.ofChars "fal\u017Fe".toList) = none := by
  refine ⟨fun b => read?_bool_eq_some_iff_follows, ?_, ?_, by decide +kernel, by decide +kernel,
    t.exists_lowersTo, fun low hlow b => read?_bool_eq_some_iff_of_lowersTo hlow, ?_,
    by decide +kernel, ?_⟩
  · simp only [read?_bool_eq_none_iff, Ne, read?_bool_eq_some_iff_follows]
  · intro h
    obtain ⟨p, hp, hvalue⟩ := h
    exact read?_bool_eq_none_of_not_ascii hp hvalue
  · intro cs hcs b
    subst hcs
    exact ⟨Literal.accept?_truthWord_iff_follows, Literal.accept?_of_read?_bool⟩
  · have hmem : CodePoint.char '\u017F' ∈ Text.ofChars "fal\u017Fe".toList := by decide
    exact read?_bool_eq_none_of_not_ascii hmem (by decide)

/-- `FaLsE` follows the letters of `false` and has that word for its
lower case; the Kelvin sign has a letter for it, but is no text to
read. -/
theorem Kind.read?_bool_letters_mixed :
    (Text.ofChars "FaLsE".toList).LowersTo (.ofChars (truthWord false)) ∧
      Kind.bool.read? .legacy (.ofChars "FaLsE".toList) = some (.bool false) ∧
      Literal.accept? (truthWord false) "FaLsE".toList = some "FaLsE".toList ∧
      (∃ p ∈ Text.ofChars ['\u212A'], 0x80 ≤ p.value) ∧
      Kind.bool.read? .legacy (.ofChars ['\u212A']) = none := by
  obtain ⟨hletters, -, -, -, -, ⟨low, hlow⟩, hlowers, hliteral, -⟩ :=
    Kind.read?_bool_letters .legacy (.ofChars "FaLsE".toList)
  obtain ⟨-, -, hbeyond, -⟩ := Kind.read?_bool_letters .legacy (.ofChars ['\u212A'])
  have hread := (hletters false).mpr (by simp [Text.Follows, truthLetters, Text.ofChars])
  obtain rfl := (hlowers low hlow false).mp hread
  have hkelvin : ∃ p ∈ Text.ofChars ['\u212A'], 0x80 ≤ p.value :=
    ⟨.char '\u212A', by decide, by decide⟩
  exact ⟨hlow, hread, (hliteral _ rfl false).2 hread, hkelvin, hbeyond hkelvin⟩

end Unformat
