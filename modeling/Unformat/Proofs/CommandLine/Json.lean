/-
JSON, read strictly: blanks between lexemes and nowhere else, whole
numbers without zeros in front, no control characters in texts, and pairs
of surrogates behind `\u` as one code point.

A text is cut into lexemes first (`Json.lexemes?`). What stands where is
then decided lexeme by lexeme, with the arrays and objects that are open
on a stack (`Json.step?`), so arrays and objects of any depth are read
without a recursion into them.
-/
import Unformat.Number.Decimal
import Unformat.Proofs.Text.Escaped

namespace Unformat

/-- A JSON value. A number without point and exponent is an integer. -/
inductive Json where
  | null
  | bool (b : Bool)
  | int (n : Int)
  | decimal (d : Decimal)
  | text (t : Text)
  | array (items : List Json)
  | object (members : List (Text × Json))

namespace Json

-- =============================================================== texts

/-- How texts are written in JSON. -/
def escapes : EscapeStyle where
  letters := [('"', 0x22), ('\\', 0x5C), ('/', 0x2F), ('b', 0x08), ('f', 0x0C), ('n', 0x0A),
    ('r', 0x0D), ('t', 0x09)]
  widths := [('u', 4)]
  plain c := 0x20 ≤ c.toNat

/-- The number of the code point that two halves make, if they are the
first and the second half of a pair. -/
def pair? (first second : Nat) : Option Nat :=
  if 0xD800 ≤ first ∧ first < 0xDC00 ∧ 0xDC00 ≤ second ∧ second < 0xE000 then
    some (0x10000 + (first - 0xD800) * 0x400 + (second - 0xDC00))
  else none

/-- Numbers with every pair of halves as one. -/
def joinPairs : List Nat → List Nat
  | first :: second :: ns =>
      match pair? first second with
      | some n => n :: joinPairs ns
      | none => first :: joinPairs (second :: ns)
  | ns => ns

/-- The text behind a quotation mark, and what follows its end. -/
def readText? (cs : List Char) : Option (Text × List Char) :=
  (escapes.read? '"' cs).bind fun r =>
    (Text.ofNumbers? (joinPairs r.1)).map fun t => (t, r.2)

-- =============================================================== words

/-- The number that is spelled: an integer, or a decimal with digits on
both sides of its point. -/
def number? (cs : List Char) : Option Json :=
  let unsigned := if cs.head? = some '-' then cs.tail else cs
  let (whole, rest) := Decimal.spanDigits unsigned
  if whole = [] ∨ (whole.head? = some '0' ∧ whole ≠ ['0']) then none
  else if rest = [] then (readInteger? cs).map .int
  else if rest.head? = some '.' ∧ (Decimal.spanFraction rest).1 = [] then none
  else (Decimal.readUnbounded? cs).map .decimal

/-- The values that have a name. -/
def names : List (List Char × Json) :=
  [("null".toList, .null), ("true".toList, .bool true), ("false".toList, .bool false)]

/-- The value that stands without marks around it: a number or a name. -/
def word? (cs : List Char) : Option Json :=
  (number? cs).or (names.lookup cs)

/-- The characters of such values. -/
def isWordChar (c : Char) : Bool :=
  c.isAlphanum || c ∈ ['+', '-', '.']

-- ============================================================= lexemes

/-- The marks of arrays and objects, and values without parts. -/
inductive Lexeme where
  | mark (c : Char)
  | value (j : Json)

/-- The marks of arrays and objects. -/
def marks : List Char := ['[', ']', '{', '}', ':', ',']

/-- The blanks that may stand around lexemes. -/
def blanks : List Char := [' ', '\t', '\n', '\r']

/-- The first lexeme of a text, and what follows it. -/
def lexeme? : List Char → Option (Lexeme × List Char)
  | [] => none
  | c :: cs =>
      if c = '"' then (readText? cs).map fun r => (.value (.text r.1), r.2)
      else if c ∈ marks then some (.mark c, cs)
      else
        (word? ((c :: cs).takeWhile isWordChar)).map fun j =>
          (.value j, (c :: cs).dropWhile isWordChar)

theorem length_lt_of_lexeme? {cs rest : List Char} {l : Lexeme} (h : lexeme? cs = some (l, rest)) :
    rest.length < cs.length := by
  unfold lexeme? at h
  split at h
  · cases h
  next c cs =>
    split at h
    · obtain ⟨r, hr, heq⟩ := Option.map_eq_some_iff.mp h
      obtain ⟨r', hread, hr'⟩ := Option.bind_eq_some_iff.mp hr
      obtain ⟨t, -, rfl⟩ := Option.map_eq_some_iff.mp hr'
      cases heq
      exact Nat.lt_succ_of_lt (EscapeStyle.length_lt_of_read? hread)
    · split at h
      · cases h
        exact Nat.lt_succ_self _
      · obtain ⟨j, hword, heq⟩ := Option.map_eq_some_iff.mp h
        cases heq
        -- no value is spelled by nothing
        by_cases hc : isWordChar c = true
        · rw [List.dropWhile_cons_of_pos hc]
          exact Nat.lt_succ_of_le (List.dropWhile_sublist _).length_le
        · rw [List.takeWhile_cons_of_neg hc] at hword
          cases hword

/-- The lexemes of a text. -/
def lexemes? : List Char → Option (List Lexeme)
  | [] => some []
  | c :: cs =>
      if c ∈ blanks then lexemes? cs
      else
        match h : lexeme? (c :: cs) with
        | none => none
        | some (l, rest) =>
            have : rest.length < (c :: cs).length := length_lt_of_lexeme? h
            (lexemes? rest).map (l :: ·)
termination_by cs => cs.length
decreasing_by
  · exact Nat.lt_succ_self cs.length
  · assumption

-- ============================================================== values

/-- An array or an object that is open: what is in it so far, and the key
whose value is due. -/
inductive Frame where
  | array (items : List Json)
  | object (members : List (Text × Json)) (key : Text)

/-- What may come next. -/
inductive Place where
  | value
  | firstValue
  | firstKey
  | key (members : List (Text × Json))
  | colon (members : List (Text × Json)) (key : Text)
  | behind (j : Json)

/-- What is open and may come next behind a lexeme. -/
def step? : List Frame × Place → Lexeme → Option (List Frame × Place)
  | (fs, .value), .value j => some (fs, .behind j)
  | (fs, .firstValue), .value j => some (fs, .behind j)
  | (fs, .value), .mark '[' => some (.array [] :: fs, .firstValue)
  | (fs, .firstValue), .mark '[' => some (.array [] :: fs, .firstValue)
  | (fs, .value), .mark '{' => some (fs, .firstKey)
  | (fs, .firstValue), .mark '{' => some (fs, .firstKey)
  | (.array items :: fs, .firstValue), .mark ']' => some (fs, .behind (.array items))
  | (fs, .firstKey), .mark '}' => some (fs, .behind (.object []))
  | (fs, .firstKey), .value (.text key) => some (fs, .colon [] key)
  | (fs, .key members), .value (.text key) => some (fs, .colon members key)
  | (fs, .colon members key), .mark ':' => some (.object members key :: fs, .value)
  | (.array items :: fs, .behind j), .mark ',' => some (.array (items ++ [j]) :: fs, .value)
  | (.array items :: fs, .behind j), .mark ']' => some (fs, .behind (.array (items ++ [j])))
  | (.object members key :: fs, .behind j), .mark ',' => some (fs, .key (members ++ [(key, j)]))
  | (.object members key :: fs, .behind j), .mark '}' =>
      some (fs, .behind (.object (members ++ [(key, j)])))
  | _, _ => none

/-- The value that lexemes make. -/
def ofLexemes? (ls : List Lexeme) : Option Json :=
  match ls.foldlM step? ([], .value) with
  | some ([], .behind j) => some j
  | _ => none

/-- Reads a JSON value. -/
def read? (cs : List Char) : Option Json :=
  (lexemes? cs).bind ofLexemes?

-- =============================================================== pairs

theorem joinPairs_of_pair {first second n : Nat} (h : pair? first second = some n)
    (ns : List Nat) : joinPairs (first :: second :: ns) = n :: joinPairs ns := by
  rw [joinPairs, h]

/-- What is no first half stands for itself. -/
theorem joinPairs_cons {n : Nat} (h : n < 0xD800 ∨ 0xDC00 ≤ n) (ns : List Nat) :
    joinPairs (n :: ns) = n :: joinPairs ns := by
  cases ns with
  | nil => rfl
  | cons m ns =>
      have hnone : pair? n m = none := if_neg (by omega)
      rw [joinPairs, hnone]

-- ============================================================== pieces

/-- A piece that is taken off the front as a lexeme, if no character of a
word follows. -/
structure Lexes (piece : List Char) (l : Lexeme) : Prop where
  first_not_blank : ∃ c cs, piece = c :: cs ∧ c ∉ blanks
  lexeme?_append : ∀ rest : List Char, (∀ c ∈ rest.head?, isWordChar c = false) →
    lexeme? (piece ++ rest) = some (l, rest)

variable {piece rest : List Char} {l : Lexeme} {j : Json}

theorem lexemes?_blank {c : Char} (hc : c ∈ blanks) (cs : List Char) :
    lexemes? (c :: cs) = lexemes? cs := by
  rw [lexemes?, if_pos hc]

theorem lexemes?_cons {c : Char} {cs : List Char} (hc : c ∉ blanks)
    (h : lexeme? (c :: cs) = some (l, rest)) :
    lexemes? (c :: cs) = (lexemes? rest).map (l :: ·) := by
  rw [lexemes?, if_neg hc]
  split
  next hnone => exact nomatch h.symm.trans hnone
  next l' rest' hsome =>
    cases h.symm.trans hsome
    rfl

theorem lexemes?_append (h : Lexes piece l) (hrest : ∀ c ∈ rest.head?, isWordChar c = false) :
    lexemes? (piece ++ rest) = (lexemes? rest).map (l :: ·) := by
  have hlexeme := h.lexeme?_append rest hrest
  obtain ⟨c, cs, rfl, hc⟩ := h.first_not_blank
  exact lexemes?_cons hc hlexeme

theorem lexemes?_mark {c : Char} (hc : c ∈ marks) (cs : List Char) :
    lexemes? (c :: cs) = (lexemes? cs).map (.mark c :: ·) := by
  have hall : marks.all (fun c => c ≠ '"' ∧ c ∉ blanks) = true := by decide
  obtain ⟨hquote, hblank⟩ := of_decide_eq_true (List.all_eq_true.mp hall c hc)
  refine lexemes?_cons hblank ?_
  rw [lexeme?, if_neg hquote, if_pos hc]

/-- Blanks, marks and quotation marks are no characters of words. -/
theorem not_isWordChar_of_mem {c : Char} (h : c ∈ '"' :: blanks ++ marks) :
    isWordChar c = false := by
  have hall : ('"' :: blanks ++ marks).all (fun c => !isWordChar c) = true := by decide
  simpa using List.all_eq_true.mp hall c h

theorem not_mem_of_isWordChar {c : Char} (h : isWordChar c = true) :
    c ≠ '"' ∧ c ∉ blanks ∧ c ∉ marks := by
  have hnot : c ∉ '"' :: blanks ++ marks := fun hmem =>
    Bool.false_ne_true ((not_isWordChar_of_mem hmem).symm.trans h)
  simpa only [List.cons_append, List.mem_cons, List.mem_append, not_or] using hnot

/-- A word ends where no character of a word follows. -/
theorem lexeme?_word {cs : List Char} (hne : cs ≠ []) (hchars : ∀ c ∈ cs, isWordChar c = true)
    (hrest : ∀ c ∈ rest.head?, isWordChar c = false) :
    lexeme? (cs ++ rest) = (word? cs).map fun j => (.value j, rest) := by
  have hend : rest.takeWhile isWordChar = [] ∧ rest.dropWhile isWordChar = rest := by
    cases rest with
    | nil => exact ⟨rfl, rfl⟩
    | cons d rest =>
        have hd : ¬ isWordChar d = true := by simp [hrest d rfl]
        exact ⟨List.takeWhile_cons_of_neg hd, List.dropWhile_cons_of_neg hd⟩
  have htake : (cs ++ rest).takeWhile isWordChar = cs := by
    rw [List.takeWhile_append_of_pos hchars, hend.1, List.append_nil]
  have hdrop : (cs ++ rest).dropWhile isWordChar = rest := by
    rw [List.dropWhile_append_of_pos hchars, hend.2]
  obtain ⟨c, cs, rfl⟩ := List.exists_cons_of_ne_nil hne
  obtain ⟨hquote, -, hmark⟩ := not_mem_of_isWordChar (hchars c List.mem_cons_self)
  rw [List.cons_append] at htake hdrop ⊢
  rw [lexeme?, if_neg hquote, if_neg hmark, htake, hdrop]

theorem lexes_word {cs : List Char} (hword : word? cs = some j)
    (hchars : ∀ c ∈ cs, isWordChar c = true) : Lexes cs (.value j) := by
  have hne : cs ≠ [] := by
    rintro rfl
    cases hword
  obtain ⟨c, tail, hcons⟩ := List.exists_cons_of_ne_nil hne
  have hc := hchars c (hcons ▸ List.mem_cons_self)
  refine ⟨⟨c, tail, hcons, (not_mem_of_isWordChar hc).2.1⟩, fun rest hrest => ?_⟩
  rw [lexeme?_word hne hchars hrest, hword]
  rfl

/-- A text is no JSON where a word in it means nothing. -/
theorem lexemes?_word_eq_none {cs : List Char} (hne : cs ≠ [])
    (hchars : ∀ c ∈ cs, isWordChar c = true) (hword : word? cs = none)
    (hrest : ∀ c ∈ rest.head?, isWordChar c = false) : lexemes? (cs ++ rest) = none := by
  have hlexeme := lexeme?_word hne hchars hrest
  obtain ⟨c, cs, rfl⟩ := List.exists_cons_of_ne_nil hne
  rw [hword, List.cons_append] at hlexeme
  rw [List.cons_append, lexemes?,
    if_neg (not_mem_of_isWordChar (hchars c List.mem_cons_self)).2.1]
  split
  next => rfl
  next l' rest' hsome => exact nomatch hsome.symm.trans hlexeme

theorem lexes_text {cs : List Char} {t : Text}
    (h : ∀ rest, readText? (cs ++ '"' :: rest) = some (t, rest)) :
    Lexes ('"' :: cs ++ ['"']) (.value (.text t)) where
  first_not_blank := ⟨'"', cs ++ ['"'], rfl, by decide⟩
  lexeme?_append rest _ := by
    show lexeme? ('"' :: (cs ++ ['"'] ++ rest)) = _
    rw [lexeme?, if_pos rfl, List.append_assoc, List.singleton_append, h]
    rfl

end Json

end Unformat
