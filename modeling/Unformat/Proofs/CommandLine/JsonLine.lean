/-
What is written of values as a line of JSON loses nothing: read as JSON,
the line is an array of them (`JsonLine.exists_read?_write`), and it is
made of visible characters of ASCII (`JsonLine.visible_of_mem_write`). What
is no number, or an infinity, has a text that is no JSON
(`JsonLine.read?_write_eq_none`).

Escape by escape, a text is read as the 16-bit units of its code points
(`JsonLine.spellsAll_escape`), and the units make up the code points again
(`JsonLine.joinPairs_unitNumbers`). For that no half of a pair may stand
alone in the text: two halves side by side would be read as a pair.
-/
import Unformat.JsonLine
import Unformat.Proofs.CommandLine.Json
import Unformat.Proofs.Number.ShortestText
import Unformat.Text.CaseRun

namespace Unformat

-- ============================================== statement vocabulary

/-- What a value is read back as. A floating-point number is a decimal for
which it is the nearest. -/
def Value.ReadsBackAs : Value → Json → Prop
  | .str t, j => j = .text t
  | .bool b, j => j = .bool b
  | .int n, j => j = .int n
  | .decimal d, j => j = .text (Text.ofChars d.write)
  | .float x, j => ∃ d, j = .decimal d ∧ Binary64.ofDecimal d = x

/-- A value that is no infinity and not what stands for no number. -/
def Value.IsFinite : Value → Prop
  | .float x => x.isFinite = true
  | _ => True

/-- A value whose text, if it is one, holds no half of a pair. -/
def Value.IsWhole : Value → Prop
  | .str t => ∃ cs, t = Text.ofChars cs
  | _ => True

-- =============================================================== texts

namespace JsonLine

/-- The 16-bit units of a code point with a number. -/
def unitNumbers (n : Nat) : List Nat :=
  if n < 0x10000 then [n] else [0xD800 + (n - 0x10000) / 0x400, 0xDC00 + (n - 0x10000) % 0x400]

theorem spells_unit {n : Nat} (h : n < 0x10000) : Json.escapes.Spells '"' (unit n) n :=
  EscapeStyle.spells_digits (by decide) rfl rfl h

theorem spellsAll_units {n : Nat} (h : n < 0x110000) :
    Json.escapes.SpellsAll '"' (units n) (unitNumbers n) := by
  unfold units unitNumbers
  by_cases hsmall : n < 0x10000
  · rw [if_pos hsmall, if_pos hsmall]
    exact (spells_unit hsmall).spellsAll
  · rw [if_neg hsmall, if_neg hsmall]
    have hfirst : Json.escapes.Spells '"' _ _ := spells_unit (n := 0xD800 + (n - 0x10000) / 0x400)
      (by omega)
    have hsecond : Json.escapes.Spells '"' _ _ := spells_unit (n := 0xDC00 + (n - 0x10000) % 0x400)
      (by omega)
    exact hfirst.spellsAll.append hsecond.spellsAll

/-- A code point is read as its units. -/
theorem spellsAll_escape (p : CodePoint) :
    Json.escapes.SpellsAll '"' (escape p) (unitNumbers p.value) := by
  cases p with
  | lone half => exact spellsAll_units (CodePoint.value_lt (.lone half))
  | char c =>
      have hletter : ∀ letter d : Char, c = d →
          Json.escapes.letters.lookup letter = some d.toNat → d.toNat < 0x10000 →
          Json.escapes.SpellsAll '"' ['\\', letter] (unitNumbers c.toNat) := by
        rintro letter d rfl hlookup hsmall
        rw [unitNumbers, if_pos hsmall]
        exact (EscapeStyle.spells_letter (by decide) hlookup).spellsAll
      simp only [escape]
      split
      next hmark =>
        rcases hmark with rfl | rfl
        · exact hletter '"' '"' rfl rfl (by decide)
        · exact hletter '\\' '\\' rfl rfl (by decide)
      next hmark =>
      split
      next h => exact hletter 'n' '\n' h rfl (by decide)
      split
      next h => exact hletter 'r' '\r' h rfl (by decide)
      split
      next h => exact hletter 't' '\t' h rfl (by decide)
      split
      next h => exact hletter 'f' '\x0C' h rfl (by decide)
      split
      next h => exact hletter 'b' '\x08' h rfl (by decide)
      split
      next hplain =>
        have hsmall : c.toNat < 0x10000 := by omega
        have hspells : Json.escapes.Spells '"' [c] c.toNat :=
          EscapeStyle.spells_plain (fun h => hmark (.inl h)) (fun h => hmark (.inr h))
            (decide_eq_true hplain.1)
        show Json.escapes.SpellsAll '"' [c] (unitNumbers c.toNat)
        rw [unitNumbers, if_pos hsmall]
        exact hspells.spellsAll
      · exact spellsAll_units (CodePoint.value_lt (.char c))

/-- The two halves above U+FFFF are a pair. -/
theorem pair?_halves {n : Nat} (hlarge : 0x10000 ≤ n) (hn : n < 0x110000) :
    Json.pair? (0xD800 + (n - 0x10000) / 0x400) (0xDC00 + (n - 0x10000) % 0x400) = some n := by
  have hsum : 0x10000 + (0xD800 + (n - 0x10000) / 0x400 - 0xD800) * 0x400 +
      (0xDC00 + (n - 0x10000) % 0x400 - 0xDC00) = n := by omega
  rw [Json.pair?, if_pos (by omega), hsum]

/-- The units of characters make them up again. -/
theorem joinPairs_unitNumbers (cs : List Char) :
    Json.joinPairs ((Text.ofChars cs).flatMap fun p => unitNumbers p.value) =
      (Text.ofChars cs).map CodePoint.value := by
  induction cs with
  | nil => rfl
  | cons c cs ih =>
      have hvalid : c.toNat.isValidChar := c.valid
      unfold Nat.isValidChar at hvalid
      show Json.joinPairs (unitNumbers c.toNat ++ (Text.ofChars cs).flatMap _) =
        c.toNat :: (Text.ofChars cs).map CodePoint.value
      rw [← ih]
      by_cases hsmall : c.toNat < 0x10000
      · rw [unitNumbers, if_pos hsmall, List.singleton_append]
        exact Json.joinPairs_cons (by omega) _
      · rw [unitNumbers, if_neg hsmall, List.cons_append, List.singleton_append]
        exact Json.joinPairs_of_pair (pair?_halves (by omega) (by omega)) _

theorem readText?_escape (cs rest : List Char) :
    Json.readText? ((Text.ofChars cs).flatMap escape ++ '"' :: rest) =
      some (Text.ofChars cs, rest) := by
  have hspells := EscapeStyle.spellsAll_flatMap (l := Text.ofChars cs) fun p _ => spellsAll_escape p
  rw [Json.readText?, EscapeStyle.read?_of_spellsAll hspells, Option.bind_some]
  simp only [joinPairs_unitNumbers, Text.ofNumbers?_map_value, Option.map_some]

-- ============================================================= numbers

/-- An integer is read as it is written. -/
theorem number?_writeInteger (n : Int) : Json.number? (writeInteger n) = some (.int n) := by
  obtain ⟨c, cs, hcons, hc⟩ := exists_cons_toDigits n.natAbs
  have hunsigned : (if (writeInteger n).head? = some '-' then (writeInteger n).tail
      else writeInteger n) = Nat.toDigits 10 n.natAbs := by
    unfold writeInteger
    by_cases hneg : n < 0
    · rw [if_pos hneg]
      rfl
    · rw [if_neg hneg, hcons, List.head?_cons]
      refine if_neg fun h => ?_
      rw [Option.some.inj h] at hc
      cases hc
  have hspan : Decimal.spanDigits (Nat.toDigits 10 n.natAbs) = (Nat.toDigits 10 n.natAbs, []) := by
    have hdigits : ∀ c ∈ Nat.toDigits 10 n.natAbs, c.isDigit = true := fun c =>
      isDigit_of_mem_toDigits
    have hnothing : ∀ c ∈ ([] : List Char).head?, c.isDigit = false := by simp
    have hspan := Decimal.spanDigits_append hdigits hnothing
    rwa [List.append_nil] at hspan
  have hwhole : ¬ (Nat.toDigits 10 n.natAbs = [] ∨
      (Nat.toDigits 10 n.natAbs).head? = some '0' ∧ Nat.toDigits 10 n.natAbs ≠ ['0']) := by
    rintro (hnil | ⟨hhead, hmore⟩)
    · exact Nat.toDigits_ne_nil hnil
    · rw [eq_zero_of_head?_toDigits hhead] at hmore
      exact hmore rfl
  have hread : readInteger? (writeInteger n) = some n := by
    rw [readInteger?, takeSign_writeInteger]
    simp only [digitsValue_toDigits, signed_natAbs]
    exact if_pos ⟨Nat.toDigits_ne_nil, all_isDigit_toDigits _⟩
  unfold Json.number?
  simp only [hunsigned, hspan, if_neg hwhole, hread, Option.map_some, if_true]

/-- A number with a point or an exponent is read as the decimal that it
spells. -/
theorem number?_of_spellsPlainly {cs : List Char} {m : Numeral} (h : SpellsPlainly cs m) :
    Json.number? cs = some (.decimal m.decimal) := by
  have hread : Decimal.readUnbounded? cs = some m.decimal :=
    Decimal.readUnbounded?_eq_some_iff.mpr ⟨m, h.spells, rfl⟩
  obtain ⟨negative, hmantissa, htail, hmarked⟩ := h
  rename_i mantissa tail whole fraction exponent
  have hunsigned : (if ((if negative then ['-'] else []) ++ (mantissa ++ tail)).head? = some '-'
      then ((if negative then ['-'] else []) ++ (mantissa ++ tail)).tail
      else (if negative then ['-'] else []) ++ (mantissa ++ tail)) = mantissa ++ tail := by
    obtain ⟨c, rest, rfl, hminus, -⟩ := Decimal.exists_cons_of_spellsMantissa hmantissa.spells
    cases negative with
    | true => rfl
    | false => exact if_neg fun h => hminus (Option.some.inj h)
  have hdigit : ∀ c ∈ tail.head?, c.isDigit = false ∧ c ≠ '.' :=
    Decimal.head?_of_spellsExponent htail
  have hwhole : IsWholePart whole := by
    cases hmantissa with
    | whole hwhole => exact hwhole
    | pointed hwhole => exact hwhole
  have hnot : ¬ (whole = [] ∨ whole.head? = some '0' ∧ whole ≠ ['0']) := by
    rintro (hnil | ⟨hzero, hmore⟩)
    · exact hwhole.1.1 hnil
    · exact hmore (hwhole.2 hzero)
  obtain ⟨rest, hspan, hfraction⟩ := Decimal.span_of_spellsMantissa hmantissa.spells hdigit
  have hrest : rest ≠ [] := by
    rintro rfl
    obtain ⟨hnil, hend⟩ := Prod.mk.inj hfraction
    exact hmarked ⟨hnil.symm, hend.symm⟩
  have hpoint : ¬ (rest.head? = some '.' ∧ (Decimal.spanFraction rest).1 = []) := by
    rintro ⟨hhead, hnil⟩
    rw [hfraction] at hnil
    cases hmantissa with
    | pointed _ hdigits => exact hdigits.1 hnil
    | whole hdigits =>
        -- behind digits alone stands an exponent, and no point
        rw [Decimal.spanDigits_append hdigits.1.2 fun c hc => (hdigit c hc).1] at hspan
        rw [← (Prod.mk.inj hspan).2] at hhead
        exact (hdigit '.' hhead).2 rfl
  unfold Json.number?
  simp only [hunsigned, hspan, if_neg hnot, if_neg hrest, if_neg hpoint, hread, Option.map_some]

/-- The characters of numerals are characters of words, and visible. -/
theorem isWordChar_of_numeral {c : Char}
    (h : c.isDigit = true ∨ c ∈ ['+', '-', '.', 'e', 'E']) :
    Json.isWordChar c = true ∧ isVisibleAscii c = true := by
  rcases h with hdigit | hmark
  · have hall : c.isDigit = true → Json.isWordChar c = true ∧ isVisibleAscii c = true :=
      forall_ascii c (toNat_lt_of_isDigit hdigit) (by decide)
    exact hall hdigit
  · have hall : ['+', '-', '.', 'e', 'E'].all (fun c =>
        Json.isWordChar c && isVisibleAscii c) = true := by decide
    exact Bool.and_eq_true_iff.mp (List.all_eq_true.mp hall c hmark)

theorem mem_writeInteger {n : Int} {c : Char} (h : c ∈ writeInteger n) :
    c.isDigit = true ∨ c ∈ ['+', '-', '.', 'e', 'E'] := by
  unfold writeInteger at h
  split at h
  · rcases List.mem_cons.mp h with rfl | hc
    · exact .inr (by simp)
    · exact .inl (isDigit_of_mem_toDigits hc)
  · exact .inl (isDigit_of_mem_toDigits h)

/-- The text of a number that is not finite is no JSON. -/
theorem float_of_not_isFinite {x : Binary64} (h : x.isFinite = false) :
    x.write layout ∈ ["NaN".toList, "Infinity".toList, "-Infinity".toList] := by
  have hlarge : ¬ x.magnitude.val < Binary64.infinityBits := of_decide_eq_false h
  unfold Binary64.write
  extract_lets bits
  by_cases hmore : Binary64.infinityBits < bits
  · rw [if_pos hmore]
    exact List.mem_cons_self
  · rw [if_neg hmore, if_pos (Nat.le_antisymm (Nat.not_lt.mp hmore) (Nat.not_lt.mp hlarge))]
    cases x.negative with
    | false => exact List.mem_cons_of_mem _ List.mem_cons_self
    | true => exact List.mem_cons_of_mem _ (List.mem_cons_of_mem _ List.mem_cons_self)

-- ============================================================== values

theorem lexes_text (cs : List Char) :
    Json.Lexes (text (Text.ofChars cs)) (.value (.text (Text.ofChars cs))) :=
  Json.lexes_text (readText?_escape cs)

/-- A value is read back as something, unless it is an infinity or no
number. -/
theorem exists_lexes_value {v : Value} (hwhole : v.IsWhole) (hfinite : v.IsFinite) :
    ∃ j, v.ReadsBackAs j ∧ Json.Lexes (value v) (.value j) := by
  have hnumber : ∀ {cs j}, Json.number? cs = some j →
      (∀ c ∈ cs, c.isDigit = true ∨ c ∈ ['+', '-', '.', 'e', 'E']) →
      Json.Lexes cs (.value j) := fun hnumber hchars =>
    Json.lexes_word (by rw [Json.word?, hnumber, Option.some_or])
      fun c hc => (isWordChar_of_numeral (hchars c hc)).1
  cases v with
  | str t =>
      obtain ⟨cs, rfl⟩ := hwhole
      exact ⟨_, rfl, lexes_text cs⟩
  | decimal d => exact ⟨_, rfl, lexes_text d.write⟩
  | bool b =>
      cases b with
      | true => exact ⟨_, rfl, Json.lexes_word rfl (List.all_eq_true.mp rfl)⟩
      | false => exact ⟨_, rfl, Json.lexes_word rfl (List.all_eq_true.mp rfl)⟩
  | int n => exact ⟨_, rfl, hnumber (number?_writeInteger n) fun c => mem_writeInteger⟩
  | float x =>
      obtain ⟨m, hspells, hnearest⟩ := Binary64.exists_spells_write layout hfinite
      exact ⟨_, ⟨_, rfl, hnearest⟩,
        hnumber (number?_of_spellsPlainly hspells) hspells.spells.characters⟩

/-- What is no number, or an infinity, means nothing in JSON, whatever
stands behind it. -/
theorem lexemes?_of_not_isFinite {v : Value} (h : ¬ v.IsFinite) {rest : List Char}
    (hrest : ∀ c ∈ rest.head?, Json.isWordChar c = false) :
    Json.lexemes? (value v ++ rest) = none := by
  cases v with
  | float x =>
      have hword := float_of_not_isFinite (Bool.eq_false_iff.mpr h)
      have hall : ∀ cs ∈ ["NaN".toList, "Infinity".toList, "-Infinity".toList],
          cs ≠ [] ∧ cs.all Json.isWordChar = true ∧ (Json.word? cs).isNone = true := by decide
      obtain ⟨hne, hchars, hnone⟩ := hall _ hword
      exact Json.lexemes?_word_eq_none hne (List.all_eq_true.mp hchars)
        (Option.isNone_iff_eq_none.mp hnone) hrest
  | _ => exact absurd trivial h

-- ============================================================== arrays

theorem elements_cons (v : Value) (vs : List Value) :
    elements (v :: vs) = value v ++ vs.flatMap fun v => ',' :: ' ' :: value v := by
  induction vs generalizing v with
  | nil => simp [elements]
  | cons v' vs ih =>
      rw [elements, ih, List.flatMap_cons]
      · rfl
      · exact fun h => nomatch h

/-- The lexemes behind a value up to the end of its array. -/
def behind (js : List Json) : List Json.Lexeme :=
  (js.flatMap fun j => [.mark ',', .value j]) ++ [.mark ']']

/-- Behind a value stands a comma or the end of the array. -/
theorem not_isWordChar_head?_behind (vs : List Value) :
    ∀ c ∈ ((vs.flatMap fun v => ',' :: ' ' :: value v) ++ [']']).head?,
      Json.isWordChar c = false := by
  cases vs with
  | nil => exact fun c hc => Json.not_isWordChar_of_mem (by cases hc; decide)
  | cons v vs => exact fun c hc => Json.not_isWordChar_of_mem (by cases hc; decide)

theorem lexemes?_behind {vs : List Value} {js : List Json}
    (h : List.Forall₂ (fun v j => Json.Lexes (value v) (.value j)) vs js) :
    Json.lexemes? ((vs.flatMap fun v => ',' :: ' ' :: value v) ++ [']']) = some (behind js) := by
  induction h with
  | nil =>
      show Json.lexemes? [']'] = some [.mark ']']
      rw [Json.lexemes?_mark (by decide), Json.lexemes?]
      rfl
  | @cons v j vs js hv _ ih =>
      show Json.lexemes? (',' :: ' ' :: (value v ++ vs.flatMap _) ++ [']']) = _
      rw [List.cons_append, List.cons_append, List.append_assoc, Json.lexemes?_mark (by decide),
        Json.lexemes?_blank (by decide), Json.lexemes?_append hv (not_isWordChar_head?_behind vs),
        ih]
      rfl

/-- Behind the last value an array is closed with all of them. -/
theorem foldlM_behind (items : List Json) (j : Json) (js : List Json) :
    (behind js).foldlM Json.step? ([.array items], .behind j) =
      some ([], .behind (.array (items ++ j :: js))) := by
  induction js generalizing items j with
  | nil => rfl
  | cons j' js ih =>
      have hstep := ih (items ++ [j]) j'
      rw [List.append_assoc, List.singleton_append] at hstep
      exact hstep

theorem read?_write {values : List Value} {items : List Json}
    (h : List.Forall₂ (fun v j => Json.Lexes (value v) (.value j)) values items) :
    Json.read? (write values) = some (.array items) := by
  cases h with
  | nil =>
      have hlexemes : Json.lexemes? ['[', ']'] = some [.mark '[', .mark ']'] := by
        rw [Json.lexemes?_mark (by decide), Json.lexemes?_mark (by decide), Json.lexemes?]
        rfl
      show (Json.lexemes? ['[', ']']).bind Json.ofLexemes? = _
      rw [hlexemes]
      rfl
  | @cons v j vs js hv hvs =>
      have hlexemes : Json.lexemes? (write (v :: vs)) =
          some (.mark '[' :: .value j :: behind js) := by
        rw [write, elements_cons, List.cons_append, List.append_assoc,
          Json.lexemes?_mark (by decide), Json.lexemes?_append hv
          (not_isWordChar_head?_behind vs), lexemes?_behind hvs]
        rfl
      have hsteps : (.mark '[' :: .value j :: behind js).foldlM Json.step? ([], .value) =
          some ([], .behind (.array (j :: js))) := foldlM_behind [] j js
      rw [Json.read?, hlexemes, Option.bind_some, Json.ofLexemes?, hsteps]

/-- What is written of values is read as the array of them. -/
theorem exists_read?_write {values : List Value} (hwhole : ∀ v ∈ values, v.IsWhole)
    (hfinite : ∀ v ∈ values, v.IsFinite) :
    ∃ items, Json.read? (write values) = some (.array items) ∧
      List.Forall₂ Value.ReadsBackAs values items := by
  have hitems : ∃ items, List.Forall₂
      (fun v j => v.ReadsBackAs j ∧ Json.Lexes (value v) (.value j)) values items := by
    induction values with
    | nil => exact ⟨[], .nil⟩
    | cons v vs ih =>
        obtain ⟨hwhole, hwholes⟩ := List.forall_mem_cons.mp hwhole
        obtain ⟨hfinite, hfinites⟩ := List.forall_mem_cons.mp hfinite
        obtain ⟨j, hj⟩ := exists_lexes_value hwhole hfinite
        obtain ⟨js, hjs⟩ := ih hwholes hfinites
        exact ⟨j :: js, .cons hj hjs⟩
  obtain ⟨items, hitems⟩ := hitems
  exact ⟨items, read?_write (hitems.imp fun _ _ h => h.2), hitems.imp fun _ _ h => h.1⟩

/-- Among values that are read back, one that is not keeps the rest of the
array from being read. -/
theorem lexemes?_behind_eq_none {v : Value} {vs : List Value} (hwhole : v.IsWhole)
    (hwholes : ∀ u ∈ vs, u.IsWhole) (h : ∃ u ∈ v :: vs, ¬ u.IsFinite) :
    Json.lexemes? (value v ++ ((vs.flatMap fun v => ',' :: ' ' :: value v) ++ [']'])) = none := by
  by_cases hv : v.IsFinite
  · obtain ⟨u, hu, hinfinite⟩ := h
    have hu' : u ∈ vs := (List.mem_cons.mp hu).resolve_left fun h => hinfinite (h ▸ hv)
    obtain ⟨j, -, hlexes⟩ := exists_lexes_value hwhole hv
    cases vs with
    | nil => cases hu'
    | cons v' vs =>
        obtain ⟨hwhole', hwholes'⟩ := List.forall_mem_cons.mp hwholes
        -- the value is read, and what is behind it is not
        rw [Json.lexemes?_append hlexes (not_isWordChar_head?_behind (v' :: vs)),
          List.flatMap_cons, List.append_assoc, List.cons_append, List.cons_append,
          Json.lexemes?_mark (by decide), Json.lexemes?_blank (by decide),
          lexemes?_behind_eq_none hwhole' hwholes' ⟨u, hu', hinfinite⟩]
        rfl
  · exact lexemes?_of_not_isFinite hv (not_isWordChar_head?_behind vs)

/-- With an infinity among the values, or with what is no number, the line
is no JSON. -/
theorem read?_write_eq_none {values : List Value} (hwhole : ∀ v ∈ values, v.IsWhole)
    (h : ∃ v ∈ values, ¬ v.IsFinite) : Json.read? (write values) = none := by
  cases values with
  | nil =>
      obtain ⟨v, hv, -⟩ := h
      cases hv
  | cons v vs =>
      obtain ⟨hwhole, hwholes⟩ := List.forall_mem_cons.mp hwhole
      rw [Json.read?, write, elements_cons, List.cons_append, List.append_assoc,
        Json.lexemes?_mark (by decide), lexemes?_behind_eq_none hwhole hwholes h]
      rfl

-- =============================================================== ascii

theorem visible_of_mem_units {n : Nat} {c : Char} (h : c ∈ units n) : isVisibleAscii c = true := by
  have hunit : ∀ {m}, c ∈ unit m → isVisibleAscii c = true := by
    intro m hm
    rcases List.mem_cons.mp hm with rfl | hm
    · rfl
    · rcases List.mem_cons.mp hm with rfl | hm
      · rfl
      · exact visible_of_mem_hexDigits hm
  unfold units at h
  split at h
  · exact hunit h
  · rcases List.mem_append.mp h with h | h
    · exact hunit h
    · exact hunit h

theorem visible_of_mem_escape {p : CodePoint} {c : Char} (h : c ∈ escape p) :
    isVisibleAscii c = true := by
  cases p with
  | lone half => exact visible_of_mem_units h
  | char d =>
      have hpair : ∀ letter, isVisibleAscii letter = true → c ∈ ['\\', letter] →
          isVisibleAscii c = true := by
        intro letter hletter hc
        rcases List.mem_pair.mp hc with rfl | rfl
        · rfl
        · exact hletter
      simp only [escape] at h
      split at h
      next hmark => exact hpair d (by rcases hmark with rfl | rfl <;> rfl) h
      split at h
      · exact hpair 'n' rfl h
      split at h
      · exact hpair 'r' rfl h
      split at h
      · exact hpair 't' rfl h
      split at h
      · exact hpair 'f' rfl h
      split at h
      · exact hpair 'b' rfl h
      split at h
      next hplain =>
        rw [List.mem_singleton.mp h, isVisibleAscii, Bool.and_eq_true]
        exact ⟨decide_eq_true hplain.1, decide_eq_true hplain.2⟩
      · exact visible_of_mem_units h

theorem visible_of_mem_text {t : Text} {c : Char} (h : c ∈ text t) : isVisibleAscii c = true := by
  have hmark : c ∈ ['"'] → isVisibleAscii c = true := fun hc => by
    rw [List.mem_singleton.mp hc]
    rfl
  rcases List.mem_cons.mp h with rfl | h
  · rfl
  rcases List.mem_append.mp h with h | h
  · obtain ⟨p, -, hp⟩ := List.mem_flatMap.mp h
    exact visible_of_mem_escape hp
  · exact hmark h

theorem visible_of_mem_value {v : Value} {c : Char} (h : c ∈ value v) :
    isVisibleAscii c = true := by
  cases v with
  | str t => exact visible_of_mem_text h
  | decimal d => exact visible_of_mem_text h
  | bool b =>
      have hall : (value (.bool b)).all isVisibleAscii = true := by cases b <;> rfl
      exact List.all_eq_true.mp hall c h
  | int n => exact (isWordChar_of_numeral (mem_writeInteger h)).2
  | float x =>
      cases hfinite : x.isFinite with
      | true =>
          obtain ⟨m, hspells, -⟩ := Binary64.exists_spells_write layout hfinite
          exact (isWordChar_of_numeral (hspells.spells.characters c h)).2
      | false =>
          have hall : ∀ cs ∈ ["NaN".toList, "Infinity".toList, "-Infinity".toList],
              cs.all isVisibleAscii = true := by decide
          exact List.all_eq_true.mp (hall _ (float_of_not_isFinite hfinite)) c h

/-- What is written of values is visible. -/
theorem visible_of_mem_write {values : List Value} {c : Char} (h : c ∈ write values) :
    isVisibleAscii c = true := by
  rcases List.mem_cons.mp h with rfl | h
  · rfl
  rcases List.mem_append.mp h with h | h
  · cases values with
    | nil => cases h
    | cons v vs =>
        rw [elements_cons] at h
        rcases List.mem_append.mp h with h | h
        · exact visible_of_mem_value h
        · obtain ⟨v', -, h⟩ := List.mem_flatMap.mp h
          rcases List.mem_cons.mp h with rfl | h
          · rfl
          · rcases List.mem_cons.mp h with rfl | h
            · rfl
            · exact visible_of_mem_value h
  · rw [List.mem_singleton.mp h]
    rfl

end JsonLine

end Unformat
