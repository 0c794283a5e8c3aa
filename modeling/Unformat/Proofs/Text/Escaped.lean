/-
Texts between quotation marks, read back. Behind a backslash stands a
letter for one number, or a letter that says how many hexadecimal digits
of a number follow; every other character stands for its own number, if
the style of escaping lets it. One reader serves all styles
(`EscapeStyle.read?`).

A piece spells a number if the reader takes just that piece off the front,
whatever follows (`EscapeStyle.Spells`). Pieces one after the other, with
the mark behind them, then read as their numbers
(`EscapeStyle.read?_of_spellsAll`), so a style of writing is compared with
the reader escape by escape.
-/
import Unformat.Proofs.Number.Digits
import Unformat.Text.Quoted

namespace Unformat

-- ============================================== statement vocabulary

/-- A way to write texts between quotation marks: the letters that stand
for one number behind a backslash, the letters that so many digits in base
sixteen follow, and the characters that stand for themselves. -/
structure EscapeStyle where
  letters : List (Char × Nat)
  widths : List (Char × Nat)
  plain : Char → Bool

/-- A character of ASCII that is no control character. -/
def isVisibleAscii (c : Char) : Bool :=
  0x20 ≤ c.toNat && c.toNat < 0x7F

namespace EscapeStyle

/-- The number that a letter behind a backslash begins, and what follows
it. -/
def escaped? (style : EscapeStyle) (letter : Char) (cs : List Char) : Option (Nat × List Char) :=
  match style.letters.lookup letter with
  | some n => some (n, cs)
  | none =>
      (style.widths.lookup letter).bind fun width =>
        if width ≤ cs.length then (readHexFrom? 0 (cs.take width)).map (·, cs.drop width) else none

/-- The first number of a text, and what follows it. -/
def first? (style : EscapeStyle) : List Char → Option (Nat × List Char)
  | [] => none
  | c :: cs =>
      if c = '\\' then
        match cs with
        | [] => none
        | letter :: cs => style.escaped? letter cs
      else if style.plain c then some (c.toNat, cs)
      else none

theorem length_lt_of_first? {style : EscapeStyle} {cs rest : List Char} {n : Nat}
    (h : style.first? cs = some (n, rest)) : rest.length < cs.length := by
  have hescaped : ∀ letter cs, style.escaped? letter cs = some (n, rest) →
      rest.length ≤ cs.length := by
    intro letter cs h
    unfold escaped? at h
    split at h
    · cases h
      exact Nat.le_refl _
    · obtain ⟨width, -, hdigits⟩ := Option.bind_eq_some_iff.mp h
      split at hdigits
      · obtain ⟨m, -, hm⟩ := Option.map_eq_some_iff.mp hdigits
        cases hm
        simp
      · cases hdigits
  unfold first? at h
  split at h
  · cases h
  next c cs =>
    split at h
    · split at h
      · cases h
      next letter cs =>
        have hle := hescaped letter cs h
        simp only [List.length_cons]
        omega
    · split at h
      · cases h
        exact Nat.lt_succ_self _
      · cases h

/-- The numbers of a text up to the quotation mark, and what follows the
mark. -/
def read? (style : EscapeStyle) (mark : Char) (cs : List Char) :
    Option (List Nat × List Char) :=
  if cs.head? = some mark then some ([], cs.tail)
  else
    match h : style.first? cs with
    | none => none
    | some (n, rest) =>
        have : rest.length < cs.length := length_lt_of_first? h
        (read? style mark rest).map fun r => (n :: r.1, r.2)
termination_by cs.length

theorem length_lt_of_read? {style : EscapeStyle} {mark : Char} {cs rest : List Char} {ns : List Nat}
    (h : style.read? mark cs = some (ns, rest)) : rest.length < cs.length := by
  fun_induction read? style mark cs generalizing ns with
  | case1 cs hhead =>
      obtain ⟨tail, rfl⟩ := List.head?_eq_some_iff.mp hhead
      cases h
      exact Nat.lt_succ_self _
  | case2 cs hhead hfirst => cases h
  | case3 cs hhead n behind hfirst hlt ih =>
      obtain ⟨r, hread, hr⟩ := Option.map_eq_some_iff.mp h
      cases hr
      exact Nat.lt_trans (ih hread) hlt

/-- A piece that is read as a number wherever it stands, and does not
start with the quotation mark. -/
structure Spells (style : EscapeStyle) (mark : Char) (piece : List Char) (n : Nat) : Prop where
  head?_ne : piece.head? ≠ some mark
  first?_append : ∀ rest, style.first? (piece ++ rest) = some (n, rest)

/-- Pieces that spell numbers, one after the other. -/
inductive SpellsAll (style : EscapeStyle) (mark : Char) : List Char → List Nat → Prop where
  | nil : SpellsAll style mark [] []
  | cons {piece pieces : List Char} {n : Nat} {ns : List Nat} (h : style.Spells mark piece n)
      (hrest : SpellsAll style mark pieces ns) :
      SpellsAll style mark (piece ++ pieces) (n :: ns)

-- ============================================================== pieces

variable {style : EscapeStyle} {mark : Char} {cs ds piece : List Char} {n : Nat} {ns ms : List Nat}

theorem spells_letter {letter : Char} (hmark : mark ≠ '\\')
    (h : style.letters.lookup letter = some n) : style.Spells mark ['\\', letter] n where
  head?_ne := fun hhead => hmark (Option.some.inj hhead).symm
  first?_append rest := by
    show style.escaped? letter rest = _
    rw [escaped?, h]

/-- The last digits of a number in base sixteen. -/
theorem readHexFrom?_hexDigits (width n k : Nat) :
    readHexFrom? k (hexDigits width n) =
      some (k * Nat.pow 16 width + n % Nat.pow 16 width) := by
  induction width generalizing n with
  | zero =>
      show some k = some (k * 1 + n % 1)
      rw [Nat.mul_one, Nat.mod_one, Nat.add_zero]
  | succ width ih =>
      rw [hexDigits, readHexFrom?_append, ih, Option.bind_some, readHexFrom?,
        hexDigit?_digitChar _ (Nat.mod_lt n (by decide)), Option.bind_some, readHexFrom?]
      show some _ = some (k * (Nat.pow 16 width * 16) + n % (Nat.pow 16 width * 16))
      generalize Nat.pow 16 width = p
      have hmod : n % (p * 16) = n % 16 + 16 * (n / 16 % p) := by
        rw [Nat.mul_comm p, Nat.mod_mul]
      have hmul : k * (p * 16) = 16 * (k * p) := by
        rw [← Nat.mul_assoc, Nat.mul_comm 16]
      rw [hmod, hmul]
      congr 1
      omega

theorem spells_digits {letter : Char} {width : Nat} (hmark : mark ≠ '\\')
    (hletter : style.letters.lookup letter = none)
    (h : style.widths.lookup letter = some width) (hn : n < Nat.pow 16 width) :
    style.Spells mark ('\\' :: letter :: hexDigits width n) n where
  head?_ne := fun hhead => hmark (Option.some.inj hhead).symm
  first?_append rest := by
    have hlength : width ≤ (hexDigits width n ++ rest).length := by simp
    have hread : readHexFrom? 0 (hexDigits width n) = some n := by
      rw [readHexFrom?_hexDigits, Nat.mod_eq_of_lt hn, Nat.zero_mul, Nat.zero_add]
    show style.escaped? letter (hexDigits width n ++ rest) = _
    rw [escaped?, hletter, h]
    simp only [Option.bind_some, if_pos hlength]
    rw [List.take_left' (length_hexDigits width n), List.drop_left' (length_hexDigits width n),
      hread]
    rfl

theorem spells_plain {c : Char} (hmark : c ≠ mark) (hslash : c ≠ '\\')
    (h : style.plain c = true) : style.Spells mark [c] c.toNat where
  head?_ne := fun hhead => hmark (Option.some.inj hhead)
  first?_append rest := by
    show style.first? (c :: rest) = _
    unfold first?
    exact (if_neg hslash).trans (if_pos h)

-- =============================================================== texts

theorem Spells.spellsAll (h : style.Spells mark piece n) : style.SpellsAll mark piece [n] := by
  simpa using SpellsAll.cons h .nil

theorem SpellsAll.append (hcs : style.SpellsAll mark cs ns) (hds : style.SpellsAll mark ds ms) :
    style.SpellsAll mark (cs ++ ds) (ns ++ ms) := by
  induction hcs with
  | nil => exact hds
  | cons h _ ih =>
      rw [List.append_assoc]
      exact .cons h ih

/-- Where each element is spelled by its numbers, so is the whole list. -/
theorem spellsAll_flatMap {α : Type} {escape : α → List Char} {numbers : α → List Nat} {l : List α}
    (h : ∀ a ∈ l, style.SpellsAll mark (escape a) (numbers a)) :
    style.SpellsAll mark (l.flatMap escape) (l.flatMap numbers) := by
  induction l with
  | nil => exact .nil
  | cons a l ih =>
      obtain ⟨ha, hl⟩ := List.forall_mem_cons.mp h
      rw [List.flatMap_cons, List.flatMap_cons]
      exact ha.append (ih hl)

theorem read?_mark (rest : List Char) : style.read? mark (mark :: rest) = some ([], rest) := by
  unfold read?
  exact if_pos rfl

theorem read?_of_spells (h : style.Spells mark piece n) (rest : List Char) :
    style.read? mark (piece ++ rest) =
      (style.read? mark rest).map fun r => (n :: r.1, r.2) := by
  have hhead : (piece ++ rest).head? ≠ some mark := by
    cases piece with
    | nil => exact nomatch h.first?_append []
    | cons c piece => exact h.head?_ne
  rw [read?, if_neg hhead]
  split
  next hnone => exact nomatch (h.first?_append rest).symm.trans hnone
  next m rest' hfirst =>
    cases (h.first?_append rest).symm.trans hfirst
    rfl

/-- What is spelled up to the quotation mark is read. -/
theorem read?_of_spellsAll (h : style.SpellsAll mark cs ns) (rest : List Char) :
    style.read? mark (cs ++ mark :: rest) = some (ns, rest) := by
  induction h with
  | nil => exact read?_mark rest
  | cons h _ ih =>
      rw [List.append_assoc, read?_of_spells h, ih]
      rfl

end EscapeStyle

theorem visible_of_mem_hexDigits {width n : Nat} {c : Char} (h : c ∈ hexDigits width n) :
    isVisibleAscii c = true := by
  induction width generalizing n with
  | zero => cases h
  | succ width ih =>
      rcases List.mem_append.mp h with hmem | hmem
      · exact ih hmem
      · rw [List.mem_singleton.mp hmem]
        have hdigit : ∀ d < 16, isVisibleAscii (Nat.digitChar d) = true := by decide
        exact hdigit (n % 16) (Nat.mod_lt n (by decide))

-- ========================================================= code points

theorem CodePoint.value_lt (p : CodePoint) : p.value < 0x110000 := by
  cases p with
  | char c =>
      have hvalid : c.toNat.isValidChar := c.valid
      show c.toNat < 0x110000
      unfold Nat.isValidChar at hvalid
      omega
  | lone half =>
      show 0xD800 + half.val < 0x110000
      omega

/-- The text of some numbers, if each is that of a code point. -/
def Text.ofNumbers? (ns : List Nat) : Option Text :=
  ns.mapM CodePoint.ofNat?

theorem Text.ofNumbers?_map_value (t : Text) : ofNumbers? (t.map CodePoint.value) = some t := by
  induction t with
  | nil => rfl
  | cons p t ih =>
      unfold ofNumbers? at ih ⊢
      rw [List.map_cons, List.mapM_cons, CodePoint.ofNat?_value, ih]
      rfl

end Unformat
