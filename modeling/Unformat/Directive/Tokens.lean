/-
Cutting directives into tokens. Everything that is not a placeholder is
literal text: a marker in front of any other character opens a literal
of its own, and a doubled marker means one marker only as the last two
characters of the directive. Every directive can be cut, and the first
token always leaves a shorter rest, so the tokens are the first one and
those of the rest (`tokens_of_firstToken?`).

Only a literal can fail: it is searched for by its encoding, so its text
has to have one. A directive may come from outside with a half of a
surrogate pair alone in it, and then the first literal that holds such a
half is why there are no tokens.
-/
import Unformat.Directive.Token
import Unformat.Text.Encoding

namespace Unformat

/-- The literal of a text, if the text can be encoded. -/
def Token.ofText (t : Text) : Except EncodingFault Token :=
  t.encoded.map .literal

namespace Directive

/-- The token of the specifier that opens a directive, and the rest of
the directive. A doubled marker counts only if nothing follows it. -/
def openingSpecifier? : Text → Option (Token × Text)
  | .char m :: .char c :: rest =>
      if m ≠ marker ∨ (c = marker ∧ rest ≠ []) then none
      else (specifiers.lookup c).map fun t => (t, rest)
  | _ => none

-- ========================================================== literals

/-- The code points in front of the next marker, and the rest of the
directive; a marker that is the last code point is taken along. -/
def spanPlain : Text → Text × Text
  | [] => ([], [])
  | p :: ps =>
      if p = .char marker ∧ ps ≠ [] then ([], p :: ps)
      else
        let (run, rest) := spanPlain ps
        (p :: run, rest)

/-- Nothing is lost between a run and its rest. -/
theorem spanPlain_append (ps : Text) : (spanPlain ps).1 ++ (spanPlain ps).2 = ps := by
  induction ps with
  | nil => rfl
  | cons p ps ih =>
      simp only [spanPlain]
      split
      · rfl
      · simp [ih]

-- ======================================================== tokenizing

/-- The first token of a directive that has one, or why it is none, and
the rest of the directive: the opening specifier, or the first code point
and what is plain behind it. -/
def firstToken? : Text → Option (Except EncodingFault Token × Text)
  | [] => none
  | p :: ps =>
      match openingSpecifier? (p :: ps) with
      | some (t, rest) => some (.ok t, rest)
      | none =>
          let (run, rest) := spanPlain ps
          some (Token.ofText (p :: run), rest)

theorem length_lt_of_openingSpecifier? {ps rest : Text} {t : Token}
    (h : openingSpecifier? ps = some (t, rest)) : rest.length < ps.length := by
  unfold openingSpecifier? at h
  split at h
  next m c tail =>
    split at h
    · cases h
    · obtain ⟨s, -, hs⟩ := Option.map_eq_some_iff.1 h
      cases hs
      simp only [List.length_cons]
      omega
  · cases h

theorem length_lt_of_firstToken? {ps rest : Text} {t : Except EncodingFault Token}
    (h : firstToken? ps = some (t, rest)) : rest.length < ps.length := by
  match ps with
  | [] => simp [firstToken?] at h
  | p :: ps =>
      simp only [firstToken?] at h
      split at h
      · rename_i ho
        cases h
        exact length_lt_of_openingSpecifier? ho
      · cases h
        have := congrArg List.length (spanPlain_append ps)
        simp only [List.length_append] at this
        simp only [List.length_cons]
        omega

/-- The tokens of a directive, from left to right, or why its first
literal that is none is none. -/
def tokens (directive : Text) : Except EncodingFault (List Token) :=
  match _h : firstToken? directive with
  | none => .ok []
  | some (first, rest) => first.bind fun t => (tokens rest).map (t :: ·)
termination_by directive.length
decreasing_by exact length_lt_of_firstToken? ‹_›

@[simp] theorem tokens_nil : tokens [] = .ok [] := by
  rw [tokens]
  rfl

theorem tokens_of_firstToken? {directive rest : Text} {first : Except EncodingFault Token}
    (h : firstToken? directive = some (first, rest)) :
    tokens directive = first.bind fun t => (tokens rest).map (t :: ·) := by
  rw [tokens]
  split
  · rename_i hn
    rw [h] at hn
    cases hn
  · rename_i hs
    rw [h] at hs
    cases hs
    rfl

end Directive

end Unformat
