/-
Names close to a misspelled one. Two names are compared by the
characters that they share: the longest stretch that stands in both, and
what they share before and behind it. A name is close if at least three
fifths of the characters of both are shared.
-/
import Unformat.Text.CodePoint

namespace Unformat.CommandLine

/-- How many characters two texts have in common at their front. -/
def commonFront : Text → Text → Nat
  | a :: as, b :: bs => if a = b then commonFront as bs + 1 else 0
  | _, _ => 0

/-- The longest stretch of the first text that stands in the second, as
the two places where it starts and its length; of equal ones the first
of the first text, and then of the second. -/
def longestStretch (as bs : Text) : Nat × Nat × Nat :=
  (List.range as.length).foldl (fun best i =>
    (List.range bs.length).foldl (fun best j =>
      let n := commonFront (as.drop i) (bs.drop j)
      if best.2.2 < n then (i, j, n) else best) best) (0, 0, 0)

/-- How many characters two texts share; each level of the search spends
fuel. -/
def sharedWithin : (fuel : Nat) → Text → Text → Nat
  | 0, _, _ => 0
  | fuel + 1, as, bs =>
      match longestStretch as bs with
      | (_, _, 0) => 0
      | (i, j, n) =>
          sharedWithin fuel (as.take i) (bs.take j) + n
            + sharedWithin fuel (as.drop (i + n)) (bs.drop (j + n))

/-- How many characters two texts share. -/
def shared (as bs : Text) : Nat :=
  sharedWithin (as.length + 1) as bs

/-- The names close to a given one, at most the three closest; of names
equally close the later by code points come first. -/
def closeTo (given : Text) (names : List (List Char)) : List (List Char) :=
  let score (name : List Char) : Nat × Nat :=
    (2 * shared (.ofChars name) given, name.length + given.length)
  let close := names.filter fun name => 3 * (score name).2 ≤ 5 * (score name).1
  let ranked := close.mergeSort fun a b =>
    let scoreA := (score a).1 * (score b).2
    let scoreB := (score b).1 * (score a).2
    scoreB < scoreA || (scoreA == scoreB && !decide (a < b))
  ranked.take 3

end Unformat.CommandLine
