/-
Which texts can be encoded: those that are made of characters. For any
other text there is a fault, whose message names the first half of a
surrogate pair that stands alone in it, or the places of the first run of
such halves.
-/
import Unformat.Text.Quoted

namespace Unformat

/-- Why a text cannot be encoded: a half of a surrogate pair stands alone
in it. -/
@[ext]
structure EncodingFault where
  text : Text
  chars?_eq_none : text.chars? = none
deriving DecidableEq

namespace EncodingFault

theorem text_ne_ofChars (f : EncodingFault) (cs : List Char) : f.text ≠ .ofChars cs := by
  intro h
  have hnone := f.chars?_eq_none
  rw [h, Text.chars?_ofChars] at hnone
  cases hnone

/-- How many characters stand in front of the first half. -/
def place (f : EncodingFault) : Nat :=
  (f.text.takeWhile fun p => p.char?.isSome).length

/-- The first half, and all that stand right behind it. -/
def run (f : EncodingFault) : Text :=
  (f.text.drop f.place).takeWhile fun p => p.char?.isNone

/-- The text of a refusal. -/
def message (f : EncodingFault) : String :=
  let what :=
    match f.run with
    | [half] =>
        let shown := String.ofList (Quoted.numbered half.value)
        s!"character '{shown}' in position {f.place}"
    | run => s!"characters in position {f.place}-{f.place + run.length - 1}"
  s!"'utf-8' codec can't encode {what}: surrogates not allowed"

end EncodingFault

namespace Text

/-- The characters of a text that can be encoded. -/
def encoded (t : Text) : Except EncodingFault (List Char) :=
  match h : t.chars? with
  | some cs => .ok cs
  | none => .error ⟨t, h⟩

variable {t : Text}

theorem encoded_eq_ok_iff {cs : List Char} : t.encoded = .ok cs ↔ t = ofChars cs := by
  rw [← chars?_eq_some_iff]
  unfold encoded
  split
  next ds hds => simp [hds]
  next hnone => simp [hnone]

theorem encoded_eq_error_iff {f : EncodingFault} : t.encoded = .error f ↔ f.text = t := by
  obtain ⟨t', hnone'⟩ := f
  unfold encoded
  split
  next cs hcs =>
    refine ⟨nofun, fun h => ?_⟩
    rw [show t' = t from h, hcs] at hnone'
    cases hnone'
  next hnone => simp [eq_comm]

@[simp] theorem encoded_ofChars (cs : List Char) : (ofChars cs).encoded = .ok cs :=
  encoded_eq_ok_iff.mpr rfl

end Text

end Unformat
