/-
Cutting a text into one slice for each token, said without a walk. A
cut (`IsCut`) is judged slice by slice:

- the slice of a literal is the literal up to case;
- no two placeholders stand side by side;
- the slice of a placeholder is not empty, unless it is the last token;
- the literal behind a placeholder does not occur in the text from any
  place within the placeholder's slice on.

The last condition is what makes a cut unique (`IsCut.unique`): a
placeholder ends where the literal behind it first occurs
(`IsCut.isLeftmost`). Everything about cuts goes one token at a time,
through `isCut_cons_iff`, which says what the first slice owes to the
first two tokens and leaves a cut of the rest.

A cut may also be put together: `interleave` takes the slices of the
literals and those of the placeholders, each in order, and
`interleave_slices` says that this undoes taking them apart.
-/
import Unformat.Match.Pieces
import Unformat.Proofs.Literal.Occurrence

namespace Unformat

open Literal

-- ============================================== statement vocabulary

/-- No two placeholders stand side by side. -/
def Separated (tokens : List Token) : Prop :=
  ∀ (i : Nat) (kind kind' : Kind), tokens[i]? = some (.placeholder kind) →
    tokens[i + 1]? ≠ some (.placeholder kind')

/-- The slices of the placeholders, in order. -/
def placeholderSlices (tokens : List Token) (slices : List (List Char)) : List (List Char) :=
  (tokens.zip slices).filterMap fun e => e.1.kind?.map fun _ => e.2

/-- The slices of the literals, in order. -/
def literalSlices (tokens : List Token) (slices : List (List Char)) : List (List Char) :=
  (tokens.zip slices).filterMap fun e => e.1.text?.map fun _ => e.2

/-- One slice for each token: literals and placeholders take the next
of theirs. -/
def interleave : List Token → (literals pieces : List (List Char)) → List (List Char)
  | .literal _ :: tokens, l :: literals, pieces => l :: interleave tokens literals pieces
  | .placeholder _ :: tokens, literals, p :: pieces => p :: interleave tokens literals pieces
  | _, _, _ => []

/-- The offset at which a slice starts. -/
def sliceStart (slices : List (List Char)) (i : Nat) : Nat :=
  (slices.take i).flatten.length

/-- A text is cut into one slice for each token. -/
structure IsCut (tokens : List Token) (text : List Char) (slices : List (List Char)) : Prop where
  length_eq : slices.length = tokens.length
  flatten_eq : slices.flatten = text
  sameUpToCase : ∀ (i : Nat) (literal s : List Char), tokens[i]? = some (.literal literal) →
    slices[i]? = some s → SameUpToCase literal s
  separated : Separated tokens
  nonempty : ∀ (i : Nat) (kind : Kind) (s : List Char), tokens[i]? = some (.placeholder kind) →
    i + 1 < tokens.length → slices[i]? = some s → s ≠ []
  not_occursAt : ∀ (i : Nat) (kind : Kind) (literal s : List Char),
    tokens[i]? = some (.placeholder kind) → tokens[i + 1]? = some (.literal literal) →
    slices[i]? = some s →
    ∀ o, sliceStart slices i ≤ o → o < sliceStart slices i + s.length →
      ¬ OccursAt literal text o

-- ===================================================== the first token

theorem sliceStart_zero (slices : List (List Char)) : sliceStart slices 0 = 0 := rfl

theorem sliceStart_cons_succ (s : List Char) (slices : List (List Char)) (i : Nat) :
    sliceStart (s :: slices) (i + 1) = s.length + sliceStart slices i := by
  unfold sliceStart
  rw [List.take_succ_cons, List.flatten_cons, List.length_append]

@[simp] theorem separated_nil : Separated [] :=
  fun i _ _ hi => by cases hi

theorem separated_cons_iff {t : Token} {tokens : List Token} :
    Separated (t :: tokens) ↔
      (∀ kind kind', t = .placeholder kind → tokens[0]? ≠ some (.placeholder kind')) ∧
        Separated tokens := by
  constructor
  · intro h
    refine ⟨fun kind kind' ht => ?_, fun i => h (i + 1)⟩
    exact h 0 kind kind' (congrArg some ht)
  · intro h i kind kind' hi
    obtain ⟨hfirst, hrest⟩ := h
    cases i with
    | zero => exact hfirst kind kind' (Option.some.inj hi)
    | succ i => exact hrest i kind kind' hi

/-- What the first slice owes to the first two tokens. -/
def HeadFits : Token → List Token → (s text : List Char) → Prop
  | .literal literal, _, s, _ => SameUpToCase literal s
  | .placeholder _, [], _, _ => True
  | .placeholder _, .literal literal :: _, s, text =>
      s ≠ [] ∧ ∀ o < s.length, ¬ OccursAt literal text o
  | .placeholder _, .placeholder _ :: _, _, _ => False

theorem IsCut.headFits {t : Token} {tokens : List Token} {text s : List Char}
    {slices : List (List Char)} (h : IsCut (t :: tokens) text (s :: slices)) :
    HeadFits t tokens s text := by
  cases t with
  | literal literal => exact h.sameUpToCase 0 literal s rfl rfl
  | placeholder kind =>
      match tokens with
      | [] => trivial
      | .placeholder kind' :: tokens => exact absurd rfl (h.separated 0 kind kind' rfl)
      | .literal literal :: tokens =>
          refine ⟨h.nonempty 0 kind s rfl ?_ rfl, fun o ho => ?_⟩
          · simp only [List.length_cons]
            omega
          · refine h.not_occursAt 0 kind literal s rfl rfl rfl o (Nat.zero_le o) ?_
            rw [sliceStart_zero, Nat.zero_add]
            exact ho

theorem IsCut.tail {t : Token} {tokens : List Token} {text s : List Char}
    {slices : List (List Char)} (h : IsCut (t :: tokens) text (s :: slices)) :
    IsCut tokens slices.flatten slices where
  length_eq := by simpa using h.length_eq
  flatten_eq := rfl
  sameUpToCase i literal s' ht hs := h.sameUpToCase (i + 1) literal s' ht hs
  separated := (separated_cons_iff.mp h.separated).2
  nonempty i kind s' ht hi hs := by
    refine h.nonempty (i + 1) kind s' ht ?_ hs
    rw [List.length_cons]
    omega
  not_occursAt i kind literal s' ht hl hs o hlo hhi hocc := by
    refine h.not_occursAt (i + 1) kind literal s' ht hl hs (s.length + o) ?_ ?_ ?_
    · rw [sliceStart_cons_succ]
      omega
    · rw [sliceStart_cons_succ]
      omega
    · rw [← h.flatten_eq, List.flatten_cons]
      exact (occursAt_append_left s o).mpr hocc

theorem IsCut.cons {t : Token} {tokens : List Token} {rest s : List Char}
    {slices : List (List Char)} (hhead : HeadFits t tokens s (s ++ rest))
    (h : IsCut tokens rest slices) : IsCut (t :: tokens) (s ++ rest) (s :: slices) where
  length_eq := by rw [List.length_cons, List.length_cons, h.length_eq]
  flatten_eq := by rw [List.flatten_cons, h.flatten_eq]
  sameUpToCase i literal s' ht hs := by
    cases i with
    | zero =>
        obtain rfl := Option.some.inj ht
        obtain rfl := Option.some.inj hs
        exact hhead
    | succ i => exact h.sameUpToCase i literal s' ht hs
  separated := by
    refine separated_cons_iff.mpr ⟨?_, h.separated⟩
    rintro kind kind' rfl hnext
    cases tokens with
    | nil => cases hnext
    | cons t' tokens =>
        obtain rfl := Option.some.inj hnext
        exact hhead
  nonempty i kind s' ht hi hs := by
    cases i with
    | zero =>
        obtain rfl := Option.some.inj ht
        obtain rfl := Option.some.inj hs
        match tokens, hhead with
        | [], _ => simp at hi
        | .literal _ :: _, hhead => exact hhead.1
    | succ i =>
        refine h.nonempty i kind s' ht ?_ hs
        rw [List.length_cons] at hi
        omega
  not_occursAt i kind literal s' ht hl hs o hlo hhi := by
    cases i with
    | zero =>
        obtain rfl := Option.some.inj ht
        obtain rfl := Option.some.inj hs
        match tokens, hl, hhead with
        | .literal _ :: _, hl, hhead =>
            obtain rfl := Token.literal.inj (Option.some.inj hl)
            rw [sliceStart_zero, Nat.zero_add] at hhi
            exact hhead.2 o hhi
    | succ i =>
        -- an offset within a later slice lies behind the first one
        rw [sliceStart_cons_succ] at hlo hhi
        obtain ⟨o, rfl⟩ := Nat.exists_eq_add_of_le (Nat.le_trans (Nat.le_add_right _ _) hlo)
        rw [occursAt_append_left]
        exact h.not_occursAt i kind literal s' ht hl hs o (by omega) (by omega)

/-- A cut, one token at a time. -/
theorem isCut_cons_iff {t : Token} {tokens : List Token} {text s : List Char}
    {slices : List (List Char)} :
    IsCut (t :: tokens) text (s :: slices) ↔
      HeadFits t tokens s text ∧ ∃ rest, text = s ++ rest ∧ IsCut tokens rest slices := by
  constructor
  · intro h
    refine ⟨h.headFits, slices.flatten, ?_, h.tail⟩
    rw [← h.flatten_eq, List.flatten_cons]
  · intro h
    obtain ⟨hhead, rest, rfl, hrest⟩ := h
    exact hrest.cons hhead

theorem isCut_nil_iff {text : List Char} {slices : List (List Char)} :
    IsCut [] text slices ↔ text = [] ∧ slices = [] := by
  constructor
  · intro h
    obtain rfl := List.eq_nil_of_length_eq_zero h.length_eq
    exact ⟨h.flatten_eq.symm, rfl⟩
  · intro h
    obtain ⟨rfl, rfl⟩ := h
    refine ⟨rfl, rfl, ?_, ?_, ?_, ?_⟩ <;> intro i <;> simp

/-- A cut for some tokens has a first slice. -/
theorem IsCut.exists_cons {t : Token} {tokens : List Token} {text : List Char}
    {slices : List (List Char)} (h : IsCut (t :: tokens) text slices) :
    ∃ s slices', slices = s :: slices' :=
  List.exists_cons_of_length_eq_add_one h.length_eq

-- ========================================================= uniqueness

/-- A placeholder ends where the literal behind it first occurs. -/
theorem IsCut.isLeftmost {kind : Kind} {literal : List Char} {tokens : List Token}
    {text s : List Char} {slices : List (List Char)}
    (h : IsCut (.placeholder kind :: .literal literal :: tokens) text (s :: slices)) :
    IsLeftmost literal text s.length := by
  obtain ⟨⟨-, hnone⟩, rest, rfl, hrest⟩ := isCut_cons_iff.mp h
  refine ⟨?_, hnone⟩
  obtain ⟨s', slices, rfl⟩ := hrest.exists_cons
  obtain ⟨hcase, rest, rfl, -⟩ := isCut_cons_iff.mp hrest
  exact (occursAt_append_left s 0).mpr (occursAt_zero_iff_append.mpr ⟨s', rest, rfl, hcase⟩)

/-- The first slices of two cuts have one length: a literal's by case, a
placeholder's because both end at the leftmost occurrence. -/
theorem IsCut.length_head_eq {t : Token} {tokens : List Token} {text s s' : List Char}
    {slices slices' : List (List Char)} (h : IsCut (t :: tokens) text (s :: slices))
    (h' : IsCut (t :: tokens) text (s' :: slices')) : s.length = s'.length := by
  cases t with
  | literal literal =>
      have hcase : SameUpToCase literal s := h.headFits
      have hcase' : SameUpToCase literal s' := h'.headFits
      rw [← hcase.length_eq, hcase'.length_eq]
  | placeholder kind =>
      match tokens with
      | [] =>
          obtain ⟨-, rest, rfl, hrest⟩ := isCut_cons_iff.mp h
          obtain ⟨-, rest', htext, hrest'⟩ := isCut_cons_iff.mp h'
          rw [(isCut_nil_iff.mp hrest).1, (isCut_nil_iff.mp hrest').1, List.append_nil,
            List.append_nil] at htext
          rw [htext]
      | .literal literal :: tokens => exact h.isLeftmost.unique h'.isLeftmost
      | .placeholder kind' :: tokens => exact h.headFits.elim

/-- A text is cut in at most one way. -/
theorem IsCut.unique {tokens : List Token} {text : List Char} {slices slices' : List (List Char)}
    (h : IsCut tokens text slices) (h' : IsCut tokens text slices') : slices = slices' := by
  induction tokens generalizing text slices slices' with
  | nil => rw [(isCut_nil_iff.mp h).2, (isCut_nil_iff.mp h').2]
  | cons t tokens ih =>
      obtain ⟨s, slices, rfl⟩ := h.exists_cons
      obtain ⟨s', slices', rfl⟩ := h'.exists_cons
      have hlen := h.length_head_eq h'
      obtain ⟨-, rest, rfl, hrest⟩ := isCut_cons_iff.mp h
      obtain ⟨-, rest', htext, hrest'⟩ := isCut_cons_iff.mp h'
      obtain ⟨rfl, rfl⟩ := List.append_inj htext hlen
      rw [ih hrest hrest']

-- ======================================= taking apart, putting together

@[simp] theorem placeholderSlices_literal (l : List Char) (tokens : List Token) (s : List Char)
    (slices : List (List Char)) :
    placeholderSlices (.literal l :: tokens) (s :: slices) = placeholderSlices tokens slices := rfl

@[simp] theorem placeholderSlices_placeholder (kind : Kind) (tokens : List Token) (s : List Char)
    (slices : List (List Char)) :
    placeholderSlices (.placeholder kind :: tokens) (s :: slices)
      = s :: placeholderSlices tokens slices := rfl

@[simp] theorem literalSlices_literal (l : List Char) (tokens : List Token) (s : List Char)
    (slices : List (List Char)) :
    literalSlices (.literal l :: tokens) (s :: slices) = s :: literalSlices tokens slices := rfl

@[simp] theorem literalSlices_placeholder (kind : Kind) (tokens : List Token) (s : List Char)
    (slices : List (List Char)) :
    literalSlices (.placeholder kind :: tokens) (s :: slices) = literalSlices tokens slices := rfl

/-- Taking the slices of literals and placeholders apart loses
nothing. -/
theorem interleave_slices {tokens : List Token} {slices : List (List Char)}
    (h : slices.length = tokens.length) :
    interleave tokens (literalSlices tokens slices) (placeholderSlices tokens slices)
      = slices := by
  induction tokens generalizing slices with
  | nil =>
      obtain rfl := List.eq_nil_of_length_eq_zero h
      rfl
  | cons t tokens ih =>
      obtain ⟨s, slices, rfl⟩ := List.exists_cons_of_length_eq_add_one h
      have hrest : slices.length = tokens.length := by simpa using h
      cases t with
      | literal l => simp [interleave, ih hrest]
      | placeholder kind => simp [interleave, ih hrest]

/-- There is one slice for each placeholder. -/
theorem length_placeholderSlices {tokens : List Token} {slices : List (List Char)}
    (h : slices.length = tokens.length) :
    (placeholderSlices tokens slices).length = (tokens.filterMap Token.kind?).length := by
  induction tokens generalizing slices with
  | nil => rfl
  | cons t tokens ih =>
      obtain ⟨s, slices, rfl⟩ := List.exists_cons_of_length_eq_add_one h
      have hrest : slices.length = tokens.length := by simpa using h
      cases t with
      | literal l => exact ih hrest
      | placeholder kind => exact congrArg (· + 1) (ih hrest)

/-- The slices of the literals are the literals up to case. -/
theorem IsCut.literals_sameUpToCase {tokens : List Token} {text : List Char}
    {slices : List (List Char)} (h : IsCut tokens text slices) :
    List.Forall₂ SameUpToCase (tokens.filterMap Token.text?) (literalSlices tokens slices) := by
  induction tokens generalizing text slices with
  | nil => exact List.Forall₂.nil
  | cons t tokens ih =>
      obtain ⟨s, slices, rfl⟩ := h.exists_cons
      cases t with
      | literal l => exact List.Forall₂.cons h.headFits (ih h.tail)
      | placeholder kind => exact ih h.tail

end Unformat
