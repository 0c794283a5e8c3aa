/-
Terminal styling in a text: an escape character, a bracket, digits and
separators, and a letter. Arguments that are shown as they were given
are shown without it.
-/
import Unformat.Text.Quoted

namespace Unformat.CommandLine

/-- Whether a character may stand between the bracket and the letter of
a styling sequence. -/
def isStylingParameter (c : Char) : Bool :=
  c.isDigit || c = ';' || c = '?'

/-- What follows a styling sequence, if one stands at the front. -/
def behindStyling? : Text → Option Text
  | .char '\x1B' :: .char '[' :: ps =>
      match ps.dropWhile fun p => p.char?.any isStylingParameter with
      | .char c :: rest => if c.isAlpha then some rest else none
      | _ => none
  | _ => none

theorem length_lt_of_behindStyling? {ps rest : Text} (h : behindStyling? ps = some rest) :
    rest.length < ps.length := by
  unfold behindStyling? at h
  split at h
  · next inner =>
      split at h
      · next c tail hd =>
          have hlen := (List.dropWhile_suffix (l := inner)
            fun p => p.char?.any isStylingParameter).length_le
          rw [hd] at hlen
          split at h
          · cases h
            simp only [List.length_cons] at hlen ⊢
            omega
          · cases h
      · cases h
  · cases h

/-- A text without the styling sequences in it. -/
def withoutStyling (ps : Text) : Text :=
  match h : behindStyling? ps with
  | some rest =>
      have := length_lt_of_behindStyling? h
      withoutStyling rest
  | none =>
      match ps with
      | [] => []
      | p :: rest => p :: withoutStyling rest
termination_by ps.length

/-- A text as it is written to the terminal, where a half of a surrogate
pair that stands alone is shown by its number. -/
def written (t : Text) : String :=
  String.ofList <| t.flatMap fun
    | .char c => [c]
    | .lone half => Quoted.numbered (CodePoint.lone half).value

end Unformat.CommandLine
