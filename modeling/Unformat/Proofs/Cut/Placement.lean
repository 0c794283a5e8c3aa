/-
The literals of a pattern alone, placed in a text in order and none over
another, with any gaps between them. This is what is left of matching
for one that may go back and try again: whatever it does with the gaps,
it has to place the literals (`IsDivision.isPlacement`).

Looking for one literal after the other, each at its leftmost place
behind the one before, finds a placement, and the least there is
(`search?_least`), for no other one is ever in front of it
(`exists_search?_le`). The walk through the tokens looks for literals in
this way and in no other:

- if it ends for lack of a literal, the search ends there as well
  (`Pieces.exists_stopsAt`), and then there is no placement;
- if it cuts the text, the search finds the starts of the literals'
  slices (`IsCut.search?_eq`).

Nothing of the kind holds if the walk ends for another cause, since then
it has found all literals so far, only with the wrong gaps.
-/
import Unformat.Proofs.Cut.Pieces

namespace Unformat

open Literal

-- ============================================== statement vocabulary

/-- Literals are placed in a text: each occurs at its place, and has
ended where any later one starts. -/
structure IsPlacement (literals : List (List Char)) (text : List Char)
    (places : List Nat) : Prop where
  occursAt : List.Forall₂ (fun literal place => OccursAt literal text place) literals places
  ordered : (literals.zip places).Pairwise fun a b => a.2 + a.1.length ≤ b.2

/-- A text is divided into one slice for each token, and the slices of
the literals are the literals up to case. Nothing is asked of the
others. -/
structure IsDivision (tokens : List Token) (text : List Char)
    (slices : List (List Char)) : Prop where
  flatten_eq : slices.flatten = text
  sameUpToCase : List.Forall₂ (fun t s => ∀ literal, t = .literal literal → SameUpToCase literal s)
    tokens slices

/-- The offsets at which the slices of the literals start. -/
def literalStarts (tokens : List Token) (slices : List (List Char)) : List Nat :=
  tokens.zipIdx.filterMap fun e => e.1.text?.map fun _ => sliceStart slices e.2

/-- The walk ends at the token at an index: those in front of it can be
followed by some with which the walk succeeds, but with this one the
cause is settled whatever follows. -/
structure Pieces.StopsAt (tokens : List Token) (offset index : Nat) (ahead : List Char) (i : Nat)
    (cause : Mismatch) : Prop where
  completes : ∃ more pieces, walk (tokens.take i ++ more) offset index false ahead = .ok pieces
  settled : ∀ more, walk (tokens.take (i + 1) ++ more) offset index false ahead = .error cause

-- ========================================================== placements

section Placement

variable {literal text : List Char} {literals : List (List Char)} {place : Nat}
  {places : List Nat}

@[simp] theorem isPlacement_nil_iff : IsPlacement [] text places ↔ places = [] := by
  constructor
  · intro h
    exact List.forall₂_nil_left_iff.mp h.occursAt
  · rintro rfl
    exact ⟨List.Forall₂.nil, List.Pairwise.nil⟩

theorem isPlacement_cons_iff :
    IsPlacement (literal :: literals) text (place :: places) ↔
      OccursAt literal text place ∧ (∀ o ∈ places, place + literal.length ≤ o) ∧
        IsPlacement literals text places := by
  -- the later places are those of the pairs, for there is one for each literal
  have hsnd : List.Forall₂ (fun l o => OccursAt l text o) literals places →
      ((∀ b ∈ literals.zip places, place + literal.length ≤ b.2) ↔
        ∀ o ∈ places, place + literal.length ≤ o) := fun hocc => by
    rw [← List.forall_mem_map (f := Prod.snd) (P := fun o => place + literal.length ≤ o),
      List.map_snd_zip (Nat.le_of_eq hocc.length_eq.symm)]
  constructor
  · intro h
    obtain ⟨hocc, hrest⟩ := List.forall₂_cons.mp h.occursAt
    obtain ⟨hfirst, hordered⟩ := List.pairwise_cons.mp h.ordered
    exact ⟨hocc, (hsnd hrest).mp hfirst, hrest, hordered⟩
  · intro h
    obtain ⟨hocc, hfirst, hrest, hordered⟩ := h
    exact ⟨List.Forall₂.cons hocc hrest, List.pairwise_cons.mpr ⟨(hsnd hrest).mpr hfirst, hordered⟩⟩

/-- There is one place for each literal. -/
theorem IsPlacement.exists_cons (h : IsPlacement (literal :: literals) text places) :
    ∃ place places', places = place :: places' :=
  List.exists_cons_of_length_eq_add_one h.occursAt.length_eq.symm

/-- Text in front moves a placement along. -/
theorem isPlacement_append_left (front : List Char) :
    IsPlacement literals (front ++ text) (places.map (front.length + ·)) ↔
      IsPlacement literals text places := by
  induction literals generalizing places with
  | nil => simp
  | cons l literals ih =>
      cases places with
      | nil => exact iff_of_false (fun h => nomatch h.occursAt) (fun h => nomatch h.occursAt)
      | cons o places =>
          rw [List.map_cons, isPlacement_cons_iff, isPlacement_cons_iff, ih,
            occursAt_append_left, List.forall_mem_map]
          simp only [Nat.add_assoc, Nat.add_le_add_iff_left]

/-- What is placed behind some text is placed in the rest. -/
theorem IsPlacement.behind {front : List Char} (h : IsPlacement literals (front ++ text) places)
    (hbehind : ∀ o ∈ places, front.length ≤ o) :
    ∃ places', places = places'.map (front.length + ·) ∧ IsPlacement literals text places' := by
  have hshift : (places.map (· - front.length)).map (front.length + ·) = places := by
    rw [List.map_map]
    calc places.map ((front.length + ·) ∘ (· - front.length))
        = places.map id := List.map_congr_left fun o ho => Nat.add_sub_of_le (hbehind o ho)
      _ = places := List.map_id places
  rw [← hshift] at h
  exact ⟨_, hshift.symm, (isPlacement_append_left front).mp h⟩

/-- The first of some literals are placed as well. -/
theorem IsPlacement.of_append {more : List (List Char)}
    (h : IsPlacement (literals ++ more) text places) :
    IsPlacement literals text (places.take literals.length) := by
  induction literals generalizing places with
  | nil => exact isPlacement_nil_iff.mpr List.take_zero
  | cons l literals ih =>
      obtain ⟨o, places, rfl⟩ := h.exists_cons
      obtain ⟨hocc, hfirst, hrest⟩ := isPlacement_cons_iff.mp h
      rw [List.length_cons, List.take_succ_cons, isPlacement_cons_iff]
      exact ⟨hocc, fun o ho => hfirst o (List.mem_of_mem_take ho), ih hrest⟩

end Placement

-- ============================================================ searching

/-- The places at which literals are found one after the other, each at
the leftmost behind the one before. -/
def search? : (literals : List (List Char)) → (text : List Char) → Option (List Nat)
  | [], _ => some []
  | literal :: literals, text =>
      (offset? literal text).bind fun k =>
        (search? literals (text.drop (k + literal.length))).map fun places =>
          k :: places.map (k + literal.length + ·)

section Search

variable {literal text : List Char} {literals : List (List Char)} {k : Nat} {places : List Nat}

theorem search?_cons_of_some (h : offset? literal text = some k) :
    search? (literal :: literals) text =
      (search? literals (text.drop (k + literal.length))).map fun places =>
        k :: places.map (k + literal.length + ·) := by
  rw [search?, h, Option.bind_some]

theorem search?_cons_of_none (h : offset? literal text = none) :
    search? (literal :: literals) text = none := by
  rw [search?, h, Option.bind_none]

/-- Where literals can be placed, the search finds them, and none of them
behind its place. -/
theorem exists_search?_le (h : IsPlacement literals text places) :
    ∃ found, search? literals text = some found ∧ List.Forall₂ (· ≤ ·) found places := by
  induction literals generalizing text places with
  | nil =>
      obtain rfl := isPlacement_nil_iff.mp h
      exact ⟨[], rfl, List.Forall₂.nil⟩
  | cons l literals ih =>
      obtain ⟨o, places, rfl⟩ := h.exists_cons
      obtain ⟨hocc, hlater, hrest⟩ := isPlacement_cons_iff.mp h
      cases hk : offset? l text with
      | none => exact absurd hocc (offset?_eq_none_iff.mp hk o)
      | some k =>
          have hleft := offset?_eq_some_iff.mp hk
          have hfirst : k ≤ o := Nat.le_of_not_lt fun hlt => hleft.none_before o hlt hocc
          -- all that comes later lies behind the leftmost occurrence too
          have hlen := List.length_take_of_le hleft.occurs.add_length_le
          rw [← List.take_append_drop (k + l.length) text] at hrest
          obtain ⟨rest, rfl, hplaced⟩ := hrest.behind fun o' ho' => by
            have := hlater o' ho'
            omega
          obtain ⟨found, hsearch, hle⟩ := ih hplaced
          rw [search?_cons_of_some hk, hsearch, hlen]
          refine ⟨_, rfl, List.Forall₂.cons hfirst ?_⟩
          rw [List.forall₂_map_left_iff, List.forall₂_map_right_iff]
          exact hle.imp fun _ _ hab => Nat.add_le_add_left hab _

/-- Where the search finds nothing, nothing can be placed. -/
theorem not_isPlacement_of_search? (h : search? literals text = none) :
    ¬ IsPlacement literals text places := fun hplaced => by
  obtain ⟨found, hsearch, -⟩ := exists_search?_le hplaced
  rw [h] at hsearch
  cases hsearch

/-- What the search finds is a placement, and the least one. -/
theorem search?_least {found : List Nat} (h : search? literals text = some found) :
    IsPlacement literals text found ∧
      ∀ places, IsPlacement literals text places → List.Forall₂ (· ≤ ·) found places := by
  constructor
  · induction literals generalizing text found with
    | nil =>
        obtain rfl := Option.some.inj h
        exact isPlacement_nil_iff.mpr rfl
    | cons l literals ih =>
        obtain ⟨k, hk, hrest⟩ := Option.bind_eq_some_iff.mp h
        obtain ⟨rest, hsearch, rfl⟩ := Option.map_eq_some_iff.mp hrest
        have hocc := (offset?_eq_some_iff.mp hk).occurs
        have hlen := List.length_take_of_le hocc.add_length_le
        have hplaced := (isPlacement_append_left (text.take (k + l.length))).mpr (ih hsearch)
        rw [List.take_append_drop, hlen] at hplaced
        refine isPlacement_cons_iff.mpr ⟨hocc, ?_, hplaced⟩
        exact List.forall_mem_map.mpr fun o _ => Nat.le_add_right _ _
  · intro places hplaced
    obtain ⟨found', hsearch, hle⟩ := exists_search?_le hplaced
    obtain rfl := Option.some.inj (h.symm.trans hsearch)
    exact hle

end Search

-- =========================================================== divisions

theorem literalStarts_cons (t : Token) (tokens : List Token) (s : List Char)
    (slices : List (List Char)) :
    literalStarts (t :: tokens) (s :: slices) =
      (t.text?.map fun _ => 0).toList ++ (literalStarts tokens slices).map (s.length + ·) := by
  have hrest : ((tokens.zipIdx (0 + 1)).filterMap fun e =>
        e.1.text?.map fun _ => sliceStart (s :: slices) e.2)
      = (literalStarts tokens slices).map (s.length + ·) := by
    rw [List.zipIdx_succ, List.filterMap_map, literalStarts, List.map_filterMap]
    refine List.filterMap_congr fun e _ => ?_
    simp [sliceStart_cons_succ, Function.comp_def]
  unfold literalStarts
  rw [List.zipIdx_cons, List.filterMap_cons, hrest]
  cases t.text? <;> rfl

@[simp] theorem literalStarts_literal (l : List Char) (tokens : List Token) (s : List Char)
    (slices : List (List Char)) :
    literalStarts (.literal l :: tokens) (s :: slices) =
      0 :: (literalStarts tokens slices).map (s.length + ·) :=
  literalStarts_cons (.literal l) tokens s slices

@[simp] theorem literalStarts_placeholder (kind : Kind) (tokens : List Token) (s : List Char)
    (slices : List (List Char)) :
    literalStarts (.placeholder kind :: tokens) (s :: slices) =
      (literalStarts tokens slices).map (s.length + ·) :=
  literalStarts_cons (.placeholder kind) tokens s slices

/-- The literals of a division are placed where their slices start. -/
theorem IsDivision.isPlacement {tokens : List Token} {text : List Char}
    {slices : List (List Char)} (h : IsDivision tokens text slices) :
    IsPlacement (tokens.filterMap Token.text?) text (literalStarts tokens slices) := by
  obtain ⟨rfl, hcase⟩ := h
  induction hcase with
  | nil => exact isPlacement_nil_iff.mpr rfl
  | @cons t s tokens slices hhead _ ih =>
      have hrest := (isPlacement_append_left s).mpr ih
      rw [List.flatten_cons]
      cases t with
      | placeholder kind =>
          rw [literalStarts_placeholder]
          exact hrest
      | literal l =>
          have hs := hhead l rfl
          rw [literalStarts_literal]
          refine isPlacement_cons_iff.mpr ⟨?_, ?_, hrest⟩
          · exact occursAt_zero_iff_append.mpr ⟨s, slices.flatten, rfl, hs⟩
          · rw [hs.length_eq, Nat.zero_add]
            exact List.forall_mem_map.mpr fun o _ => Nat.le_add_right _ _

-- ================================================== searching and cutting

/-- A literal behind a gap is the first that the search finds, and the
others are found in the rest. -/
theorem search?_cons_append {l gap s rest : List Char} (ls : List (List Char))
    (hleft : IsLeftmost l (gap ++ (s ++ rest)) gap.length) (hcase : SameUpToCase l s) :
    search? (l :: ls) (gap ++ (s ++ rest)) =
      (search? ls rest).map fun places =>
        gap.length :: places.map (gap.length + s.length + ·) := by
  rw [search?_cons_of_some (offset?_eq_some_iff.mpr hleft), hcase.length_eq,
    List.drop_length_add_append, List.drop_left]

/-- The search finds the literals of a cut where their slices start. A
literal behind a placeholder is at its leftmost place because the
placeholder ends there, and any other is right ahead. -/
theorem IsCut.search?_eq : ∀ {tokens : List Token} {text : List Char} {slices : List (List Char)},
    IsCut tokens text slices →
      search? (tokens.filterMap Token.text?) text = some (literalStarts tokens slices)
  | [], _, _, _ => rfl
  | .literal l :: tokens, text, slices, h => by
      obtain ⟨s, slices, rfl⟩ := h.exists_cons
      obtain ⟨hcase, rest, rfl, hrest⟩ := isCut_cons_iff.mp h
      have hcase : SameUpToCase l s := hcase
      have hleft : IsLeftmost l ([] ++ (s ++ rest)) 0 :=
        ⟨occursAt_zero_iff_append.mpr ⟨s, rest, rfl, hcase⟩, fun o ho => absurd ho (by omega)⟩
      have hsearch := search?_cons_append (tokens.filterMap Token.text?) hleft hcase
      rw [hrest.search?_eq] at hsearch
      show search? (l :: tokens.filterMap Token.text?) (s ++ rest) = _
      simpa using hsearch
  | [.placeholder kind], text, slices, h => by
      obtain ⟨s, slices, rfl⟩ := h.exists_cons
      rfl
  | .placeholder kind :: .placeholder kind' :: tokens, text, slices, h =>
      absurd rfl (h.separated 0 kind kind' rfl)
  | .placeholder kind :: .literal l :: tokens, text, slices, h => by
      obtain ⟨gap, slices, rfl⟩ := h.exists_cons
      have hleft := h.isLeftmost
      obtain ⟨-, ahead, rfl, hahead⟩ := isCut_cons_iff.mp h
      obtain ⟨s, slices, rfl⟩ := hahead.exists_cons
      obtain ⟨hcase, rest, rfl, hrest⟩ := isCut_cons_iff.mp hahead
      have hsearch := search?_cons_append (tokens.filterMap Token.text?) hleft hcase
      rw [hrest.search?_eq] at hsearch
      show search? (l :: tokens.filterMap Token.text?) (gap ++ (s ++ rest)) = _
      simpa [Nat.add_assoc, Function.comp_def] using hsearch

-- ================================================== the end of the walk

namespace Pieces

variable {literal ahead : List Char} {tokens : List Token} {kind : Kind}

theorem walk_literal_of_none (h : offset? literal ahead = none) (tokens : List Token)
    (offset index : Nat) (waiting : Bool) :
    walk (.literal literal :: tokens) offset index waiting ahead =
      .error (.literalNotFound literal offset) := by
  simp [walk, h]

/-- A literal right ahead is passed, for nothing waits. -/
theorem walk_literal_of_front (h : offset? literal ahead = some 0) (tokens : List Token)
    (offset index : Nat) :
    walk (.literal literal :: tokens) offset index false ahead =
      walk tokens (offset + literal.length) index false (ahead.drop literal.length) := by
  simp [walk, h]

/-- A placeholder and a literal further ahead are passed together. -/
theorem walk_placeholder_literal_of_gap {k : Nat} (h : offset? literal ahead = some (k + 1))
    (kind : Kind) (tokens : List Token) (offset index : Nat) :
    walk (.placeholder kind :: .literal literal :: tokens) offset index false ahead =
      (walk tokens (offset + (k + 1 + literal.length)) (index + 1) false
        (ahead.drop (k + 1 + literal.length))).map (ahead.take (k + 1) :: ·) := by
  simp [walk, h]

namespace StopsAt

variable {offset index i : Nat} {cause : Mismatch}

/-- A passed literal moves the end by one token. -/
theorem of_front (hk : offset? literal ahead = some 0)
    (h : StopsAt tokens (offset + literal.length) index (ahead.drop literal.length) i cause) :
    StopsAt (.literal literal :: tokens) offset index ahead (i + 1) cause where
  completes := by
    obtain ⟨more, pieces, hok⟩ := h.completes
    exact ⟨more, pieces, (walk_literal_of_front hk _ offset index).trans hok⟩
  settled more := (walk_literal_of_front hk _ offset index).trans (h.settled more)

/-- A passed placeholder with the literal behind it moves the end by two
tokens. -/
theorem of_gap {k : Nat} (hk : offset? literal ahead = some (k + 1))
    (h : StopsAt tokens (offset + (k + 1 + literal.length)) (index + 1)
      (ahead.drop (k + 1 + literal.length)) i cause) :
    StopsAt (.placeholder kind :: .literal literal :: tokens) offset index ahead (i + 2)
      cause where
  completes := by
    obtain ⟨more, pieces, hok⟩ := h.completes
    refine ⟨more, ahead.take (k + 1) :: pieces, ?_⟩
    refine (walk_placeholder_literal_of_gap hk kind _ offset index).trans ?_
    exact map_eq_ok_iff.mpr ⟨pieces, hok, rfl⟩
  settled more := (walk_placeholder_literal_of_gap hk kind _ offset index).trans
    (map_eq_error_iff.mpr (h.settled more))

/-- The walk ends at one token only. -/
theorem unique {j : Nat} {cause' : Mismatch} (hi : StopsAt tokens offset index ahead i cause)
    (hj : StopsAt tokens offset index ahead j cause') : i = j := by
  -- what completes the tokens up to the later end cannot go on from the earlier one
  have hle : ∀ {i j : Nat} {cause cause' : Mismatch}, StopsAt tokens offset index ahead i cause →
      StopsAt tokens offset index ahead j cause' → j ≤ i := by
    intro i j cause cause' hi hj
    refine Nat.le_of_not_lt fun hlt => ?_
    obtain ⟨more, pieces, hok⟩ := hj.completes
    have hsplit : tokens.take j = tokens.take (i + 1) ++ (tokens.take j).drop (i + 1) :=
      calc tokens.take j = (tokens.take j).take (i + 1) ++ (tokens.take j).drop (i + 1) :=
            (List.take_append_drop (i + 1) _).symm
        _ = _ := by rw [List.take_take, Nat.min_eq_left hlt]
    rw [hsplit, List.append_assoc, hi.settled] at hok
    cases hok
  exact Nat.le_antisymm (hle hj hi) (hle hi hj)

/-- The walk through all tokens has the cause for which it ends. -/
theorem walk_eq (h : StopsAt tokens offset index ahead i cause) :
    walk tokens offset index false ahead = .error cause := by
  have hsettled := h.settled (tokens.drop (i + 1))
  rwa [List.take_append_drop] at hsettled

end StopsAt

/-- If the walk ends for lack of a literal, it ends at the token of that
literal, and the search for the literals up to it finds nothing. -/
theorem exists_stopsAt : ∀ (tokens : List Token) (offset index : Nat) (ahead : List Char)
    {literal : List Char} {place : Nat},
    walk tokens offset index false ahead = .error (.literalNotFound literal place) →
      ∃ i, StopsAt tokens offset index ahead i (.literalNotFound literal place) ∧
        tokens[i]? = some (.literal literal) ∧
        search? ((tokens.take (i + 1)).filterMap Token.text?) ahead = none
  | [], offset, index, ahead, literal, place, h => by
      simp only [walk] at h
      split at h <;> cases h
  | .literal l :: tokens, offset, index, ahead, literal, place, h => by
      cases hk : offset? l ahead with
      | none =>
          have hwalk := fun more => walk_literal_of_none hk more offset index false
          rw [hwalk] at h
          cases h
          exact ⟨0, ⟨⟨[.placeholder .string], [ahead], rfl⟩, hwalk⟩, rfl, search?_cons_of_none hk⟩
      | some k =>
          cases k with
          | zero =>
              rw [walk_literal_of_front hk] at h
              obtain ⟨i, hstops, htoken, hsearch⟩ := exists_stopsAt tokens _ _ _ h
              refine ⟨i + 1, hstops.of_front hk, htoken, ?_⟩
              show search? (l :: (tokens.take (i + 1)).filterMap Token.text?) ahead = none
              rw [search?_cons_of_some hk, Nat.zero_add, hsearch, Option.map_none]
          | succ k => simp [walk, hk] at h
  | [.placeholder kind], offset, index, ahead, literal, place, h => by
      simp [walk] at h
  | .placeholder kind :: .placeholder kind' :: tokens, offset, index, ahead, literal, place, h => by
      simp [walk] at h
  | .placeholder kind :: .literal l :: tokens, offset, index, ahead, literal, place, h => by
      cases hk : offset? l ahead with
      | none =>
          have hwalk : ∀ more, walk (.placeholder kind :: .literal l :: more) offset index false
              ahead = .error (.literalNotFound l offset) := fun more => by
            simp [walk, hk]
          rw [hwalk] at h
          cases h
          exact ⟨1, ⟨⟨[], [ahead], rfl⟩, hwalk⟩, rfl, search?_cons_of_none hk⟩
      | some k =>
          cases k with
          | zero => simp [walk, hk] at h
          | succ k =>
              rw [walk_placeholder_literal_of_gap hk] at h
              obtain ⟨i, hstops, htoken, hsearch⟩ :=
                exists_stopsAt tokens _ _ _ (map_eq_error_iff.mp h)
              refine ⟨i + 2, hstops.of_gap hk, htoken, ?_⟩
              show search? (l :: (tokens.take (i + 1)).filterMap Token.text?) ahead = none
              rw [search?_cons_of_some hk, hsearch, Option.map_none]

end Pieces

-- ============================================================== results

/-- The literals of the first tokens are the first of the literals. -/
theorem exists_texts_take_append (tokens : List Token) (n : Nat) :
    ∃ more, tokens.filterMap Token.text? = (tokens.take n).filterMap Token.text? ++ more :=
  ⟨(tokens.drop n).filterMap Token.text?, by
    rw [← List.filterMap_append, List.take_append_drop]⟩

/-- If the walk through the tokens ends for lack of a literal, it ends at
one token, and there is no way to place the literals up to that token in
the text, whatever the gaps between them; so the text cannot be divided
at all. If the text is cut, the slices of the literals are a placement
in which none of them starts behind its place in any other. -/
theorem literals_leftmost (tokens : List Token) (cs : List Char) :
    (∀ literal offset,
      (Text.ofChars cs).pieces tokens = .error (.literalNotFound literal offset) →
        ∃ i, Pieces.StopsAt tokens 0 0 cs i (.literalNotFound literal offset)) ∧
    (∀ i literal offset, Pieces.StopsAt tokens 0 0 cs i (.literalNotFound literal offset) →
      tokens[i]? = some (.literal literal) ∧
      (∀ places, ¬ IsPlacement ((tokens.take (i + 1)).filterMap Token.text?) cs places) ∧
      ∀ slices, ¬ IsDivision tokens cs slices) ∧
    (∀ pieces, (Text.ofChars cs).pieces tokens = .ok pieces →
      ∃ slices, IsCut tokens cs slices ∧ placeholderSlices tokens slices = pieces ∧
        IsPlacement (tokens.filterMap Token.text?) cs (literalStarts tokens slices) ∧
        ∀ places, IsPlacement (tokens.filterMap Token.text?) cs places →
          List.Forall₂ (· ≤ ·) (literalStarts tokens slices) places) := by
  rw [Text.pieces_ofChars]
  refine ⟨fun literal offset h => ?_, fun i literal offset hstops => ?_, fun pieces h => ?_⟩
  · obtain ⟨i, hstops, -⟩ := Pieces.exists_stopsAt tokens 0 0 cs h
    exact ⟨i, hstops⟩
  · obtain ⟨j, hstops', htoken, hsearch⟩ := Pieces.exists_stopsAt tokens 0 0 cs hstops.walk_eq
    obtain rfl := hstops.unique hstops'
    refine ⟨htoken, fun places => not_isPlacement_of_search? hsearch, fun slices hdivision => ?_⟩
    obtain ⟨more, hmore⟩ := exists_texts_take_append tokens (i + 1)
    have hplaced := hdivision.isPlacement
    rw [hmore] at hplaced
    exact not_isPlacement_of_search? hsearch hplaced.of_append
  · obtain ⟨slices, hcut, hpieces⟩ := (Pieces.walk_eq_ok_iff_isCut tokens 0 0 cs pieces).mp h
    obtain ⟨hplaced, hleast⟩ := search?_least hcut.search?_eq
    exact ⟨slices, hcut, hpieces, hplaced, hleast⟩

-- another cause does not mean that the literals cannot be placed, here at 3 and 4
example : pieces [.placeholder .string, .literal ['/'], .literal ['x']] ['a', '/', 'b', '/', 'x']
    = .error (.unexpectedText ['b', '/'] ['x']) := rfl

end Unformat
