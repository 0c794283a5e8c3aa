/-
How shapes are resolved. A shape has one type for each entry, in order,
or the first entry without a type is refused
(`Shape.ofEntries_eq_ok_iff`, `Shape.ofEntries_eq_error_iff`).

A text is a name in every spelling of the words for a type
(`ElementType.words`) and in no other text. Two tables are searched for
its lower case one after the other, and they do not contradict each
other: what the first one has is no word for any other type
(`ElementType.ofWord?_eq_some_iff`). The words are small letters and
digits below U+0080, none of them a `k`, so no character from beyond
comes down to one of them in lower case, and no rule for a capital sigma
matters (`ElementType.ofName?_eq_some_iff_of_lowersTo`).
-/
import Mathlib.Data.List.Forall2
import Unformat.Proofs.Except
import Unformat.Proofs.Text.LowerCase
import Unformat.Proofs.Text.Respelled
import Unformat.Shape.Entry

namespace Unformat

-- ============================================== statement vocabulary

/-- The words for a type: its name, and what else stands for it. -/
def ElementType.words : ElementType → List (List Char)
  | .str => ["str".toList, "string".toList]
  | .char => ["char".toList]
  | .bool => ["bool".toList]
  | .int64 => ["int64".toList, "int".toList, "long".toList]
  | .int32 => ["int32".toList]
  | .uint32 => ["uint32".toList, "uint".toList]
  | .decimal => ["decimal".toList]
  | .float => ["float".toList]

namespace ElementType

variable {t : ElementType} {word : List Char} {text low : Text}

-- =============================================================== words

theorem words_ascii (h : word ∈ t.words) : ∀ c ∈ word, c.toNat < 0x80 ∧ c ≠ 'k' := by
  revert h word
  cases t <;> simp [words]

/-- No blank and no capital letter stands in a word. -/
theorem words_bare (h : word ∈ t.words) : (Text.ofChars word).bare = .ofChars word := by
  revert h word
  cases t <;> decide +kernel

theorem name_mem_words (t : ElementType) : t.name.toList ∈ t.words := by
  cases t <;> decide

/-- What stands for a type is one of its words. -/
theorem alias_mem_words : ∀ a ∈ aliases, a.1.toList ∈ a.2.words := by
  decide

theorem ofWord?_eq_some_iff : ofWord? word = some t ↔ word ∈ t.words := by
  constructor
  · intro h
    unfold ofWord? at h
    cases halias : aliases.lookup (String.ofList word) with
    | some a =>
        simp only [halias, Option.some.injEq] at h
        subst h
        obtain ⟨before, after, hsplit, -⟩ := List.lookup_eq_some_iff.mp halias
        have hmem := alias_mem_words (String.ofList word, a) (by rw [hsplit]; simp)
        rwa [String.toList_ofList] at hmem
    | none =>
        simp only [halias] at h
        have hname : t.name = String.ofList word := by simpa using List.find?_some h
        have hmem := t.name_mem_words
        rwa [hname, String.toList_ofList] at hmem
  · revert word
    cases t <;> decide +kernel

-- =============================================================== names

/-- A text is a name of a type if a word for it is left without blanks and
in small letters. -/
theorem ofName?_eq_some_iff :
    ofName? text = some t ↔ ∃ word ∈ t.words, text.bare = .ofChars word := by
  unfold ofName?
  rw [Option.bind_eq_some_iff]
  constructor
  · intro h
    obtain ⟨cs, hchars, hword⟩ := h
    have hmem := ofWord?_eq_some_iff.mp hword
    refine ⟨lowerAll cs, hmem, Text.bare_eq_ofChars_iff.mpr ⟨cs, ?_, ?_⟩⟩
    · exact Text.eq_ofChars_of_chars? hchars
    · exact (lowerAll_eq_iff (words_ascii hmem)).mp rfl
  · intro h
    obtain ⟨word, hmem, hbare⟩ := h
    obtain ⟨cs, hstrip, hsmall⟩ := Text.bare_eq_ofChars_iff.mp hbare
    refine ⟨cs, by rw [hstrip, Text.chars?_ofChars], ?_⟩
    rw [(lowerAll_eq_iff (words_ascii hmem)).mpr hsmall, ofWord?_eq_some_iff]
    exact hmem

theorem ofName?_eq_some_iff_respelled :
    ofName? text = some t ↔ ∃ word ∈ t.words, (Text.ofChars word).Respelled text := by
  rw [ofName?_eq_some_iff]
  refine exists_congr fun word => and_congr_right fun hmem => ?_
  rw [Text.respelled_iff (words_bare hmem)]

/-- How a name is spelled does not matter for its type, nor for whether
it has one. -/
theorem ofName?_of_respelled {spelled : Text} (h : text.Respelled spelled) :
    ofName? spelled = ofName? text := by
  refine Option.ext fun t => ?_
  rw [ofName?_eq_some_iff, ofName?_eq_some_iff, h.bare_eq]

/-- The name of a type is a name of that type. -/
theorem ofEntry?_name (t : ElementType) : ofEntry? (.name t.name.toList) = some t := by
  refine ofName?_eq_some_iff.mpr ⟨t.name.toList, t.name_mem_words, ?_⟩
  exact words_bare t.name_mem_words

/-- Whichever of its lower cases a text has, it is a name of a type if
that is a word. -/
theorem ofName?_eq_some_iff_of_lowersTo (h : text.strip.LowersTo low) :
    ofName? text = some t ↔ ∃ word ∈ t.words, low = .ofChars word := by
  rw [ofName?_eq_some_iff]
  refine exists_congr fun word => and_congr_right fun hmem => ?_
  rw [h.eq_ofChars_iff (words_ascii hmem), Text.bare_eq_ofChars_iff]

end ElementType

-- ============================================================== entries

namespace Shape

open ElementType

variable {e : ShapeEntry} {es : List ShapeEntry} {t : ElementType} {shape : Shape}
  {fault : ShapeFault}

theorem ofEntries_cons_of_none (h : ofEntry? e = none) :
    ofEntries (e :: es) = .error (.unknown e) := by
  simp only [ofEntries, h]

theorem ofEntries_cons_of_some (h : ofEntry? e = some t) :
    ofEntries (e :: es) = (ofEntries es).map (t :: ·) := by
  simp only [ofEntries, h]

theorem ofEntries_eq_ok_iff :
    ofEntries es = .ok shape ↔ List.Forall₂ (fun e t => ofEntry? e = some t) es shape := by
  induction es generalizing shape with
  | nil =>
      rw [List.forall₂_nil_left_iff, ofEntries, Except.ok.injEq]
      exact eq_comm
  | cons e es ih =>
      rw [List.forall₂_cons_left_iff]
      cases he : ofEntry? e with
      | none =>
          rw [ofEntries_cons_of_none he]
          exact ⟨nofun, fun ⟨t, _, ht, _⟩ => nomatch ht⟩
      | some t =>
          rw [ofEntries_cons_of_some he, map_eq_ok_iff]
          constructor
          · intro h
            obtain ⟨rest, hrest, rfl⟩ := h
            exact ⟨t, rest, rfl, ih.mp hrest, rfl⟩
          · intro h
            obtain ⟨t', rest, ht, hrest, rfl⟩ := h
            cases ht
            exact ⟨rest, ih.mpr hrest, rfl⟩

theorem ofEntries_of_first_none {before after : List ShapeEntry}
    (hbefore : ∀ d ∈ before, ∃ t, ofEntry? d = some t) (hnone : ofEntry? e = none) :
    ofEntries (before ++ e :: after) = .error (.unknown e) := by
  induction before with
  | nil => exact ofEntries_cons_of_none hnone
  | cons d before ih =>
      obtain ⟨⟨t, ht⟩, hrest⟩ := List.forall_mem_cons.mp hbefore
      rw [List.cons_append, ofEntries_cons_of_some ht, ih hrest]
      rfl

theorem exists_first_none (h : ofEntries es = .error fault) :
    ∃ before e after, es = before ++ e :: after ∧
      (∀ d ∈ before, ∃ t, ofEntry? d = some t) ∧ ofEntry? e = none ∧ fault = .unknown e := by
  induction es with
  | nil => cases h
  | cons e es ih =>
      cases he : ofEntry? e with
      | none =>
          rw [ofEntries_cons_of_none he, Except.error.injEq] at h
          exact ⟨[], e, es, rfl, List.forall_mem_nil _, he, h.symm⟩
      | some t =>
          rw [ofEntries_cons_of_some he, map_eq_error_iff] at h
          obtain ⟨before, e', after, rfl, hbefore, hnone, hfault⟩ := ih h
          have hall := List.forall_mem_cons.mpr ⟨⟨t, he⟩, hbefore⟩
          exact ⟨e :: before, e', after, rfl, hall, hnone, hfault⟩

/-- A refusal names the first entry without a type. -/
theorem ofEntries_eq_error_iff :
    ofEntries es = .error fault ↔ ∃ before e after, es = before ++ e :: after ∧
      (∀ d ∈ before, ∃ t, ofEntry? d = some t) ∧ ofEntry? e = none ∧ fault = .unknown e := by
  refine ⟨exists_first_none, fun h => ?_⟩
  obtain ⟨before, e, after, rfl, hbefore, hnone, rfl⟩ := h
  exact ofEntries_of_first_none hbefore hnone

/-- A shape is made if each of its entries has a type by itself. -/
theorem exists_ofEntries_iff :
    (∃ shape, ofEntries es = .ok shape) ↔ ∀ e ∈ es, ∃ t, ofEntry? e = some t := by
  cases hresult : ofEntries es with
  | ok shape =>
      have hall := ofEntries_eq_ok_iff.mp hresult
      refine iff_of_true ⟨shape, rfl⟩ fun e he => ?_
      obtain ⟨i, hi, rfl⟩ := List.getElem_of_mem he
      exact ⟨_, hall.get hi (hall.length_eq ▸ hi)⟩
  | error fault =>
      obtain ⟨before, e, after, rfl, -, hnone, -⟩ := exists_first_none hresult
      refine iff_of_false nofun fun h => ?_
      obtain ⟨t, ht⟩ := h e (List.mem_append_right _ List.mem_cons_self)
      rw [hnone] at ht
      cases ht

/-- The names of the types of a shape make that shape. -/
theorem ofEntries_names (shape : Shape) :
    ofEntries (shape.map fun t => .name t.name.toList) = .ok shape := by
  rw [ofEntries_eq_ok_iff, List.forall₂_map_left_iff]
  exact List.forall₂_same.mpr fun t _ => ofEntry?_name t

-- =============================================================== result

/-- A shape is made if and only if each of its entries has a type by
itself. It has these types then, one for each entry, in order; otherwise
the refusal names the first entry that has none. The names of the types
of a shape make the same shape again. Blanks around a text and the case
of its letters below U+0080 change neither its type nor whether it has
one: the names of a type are the spellings of its words, and whichever
lower case a text has, it is a name if that is a word. -/
theorem resolution_laws (es : List ShapeEntry) :
    ((∃ shape, ofEntries es = .ok shape) ↔ ∀ e ∈ es, ∃ t, ofEntry? e = some t) ∧
    (∀ shape, ofEntries es = .ok shape ↔
      List.Forall₂ (fun e t => ofEntry? e = some t) es shape) ∧
    (∀ fault, ofEntries es = .error fault ↔ ∃ before e after, es = before ++ e :: after ∧
      (∀ d ∈ before, ∃ t, ofEntry? d = some t) ∧ ofEntry? e = none ∧ fault = .unknown e) ∧
    (∀ shape, ofEntries es = .ok shape →
      ofEntries (shape.map fun t => .name t.name.toList) = .ok shape) ∧
    (∀ text spelled : Text, text.Respelled spelled →
      ofEntry? (.text spelled) = ofEntry? (.text text)) ∧
    (∀ (text : Text) t, ofEntry? (.text text) = some t ↔
      ∃ word ∈ t.words, (Text.ofChars word).Respelled text) ∧
    (∀ text low : Text, text.strip.LowersTo low → ∀ t, ofEntry? (.text text) = some t ↔
      ∃ word ∈ t.words, low = .ofChars word) :=
  ⟨exists_ofEntries_iff, fun _ => ofEntries_eq_ok_iff, fun _ => ofEntries_eq_error_iff,
    fun shape _ => ofEntries_names shape, fun _ _ => ofName?_of_respelled,
    fun _ _ => ofName?_eq_some_iff_respelled, fun _ _ hlow _ => ofName?_eq_some_iff_of_lowersTo hlow⟩

/-- A name with a wide blank before it, a separator behind it and some
capital letters, a class of values, and a type itself. -/
theorem resolution_laws_mixed_entries :
    let text := Text.ofChars "\u3000UiNt\u001C".toList
    let es : List ShapeEntry := [.text text, .valueClass .decimal, .type .char]
    (Text.ofChars "uint".toList).Respelled text ∧
      ofEntry? (.text text) = ofEntry? (.name "uint".toList) ∧
      text.strip.LowersTo (.ofChars "uint".toList) ∧
      ofEntries es = .ok [.uint32, .decimal, .char] ∧
      ofEntries [.name "uint32".toList, .name "decimal".toList, .name "char".toList] =
        .ok [.uint32, .decimal, .char] := by
  intro text es
  obtain ⟨-, hok, -, hnames, hspelled, -, hlowers⟩ := resolution_laws es
  have hrespelled : (Text.ofChars "uint".toList).Respelled text :=
    ⟨[.char '\u3000'], .ofChars "UiNt".toList, [.char '\u001C'], rfl,
      .capital 'u' (.same _ (.capital 'n' (.same _ .nil))), by decide, by decide⟩
  have hstrip : text.strip = .ofChars "UiNt".toList := by decide +kernel
  have hlow : text.strip.LowersTo (.ofChars "uint".toList) := by
    obtain ⟨low, hlow⟩ := text.strip.exists_lowersTo
    rw [hstrip] at hlow ⊢
    obtain rfl := hlow.eq_of_ascii (by simp)
    exact hlow
  have htype : ofEntry? (.text text) = some .uint32 :=
    (hlowers text _ hlow .uint32).mpr ⟨"uint".toList, by decide, rfl⟩
  have hshape : ofEntries es = .ok [.uint32, .decimal, .char] :=
    (hok _).mpr (.cons htype (.cons rfl (.cons rfl .nil)))
  exact ⟨hrespelled, hspelled _ _ hrespelled, hlow, hshape, hnames _ hshape⟩

end Shape

end Unformat
