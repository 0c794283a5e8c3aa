/-
Where a directive is cut into tokens, said by offsets alone. A directive
is cut at both its ends, in front of every marker that has something
behind it, and behind every letter that makes a placeholder of the
marker in front of it (`IsOffset`). The slices between neighbouring
offsets are the tokens (`tokens_eq_slices`): a marker and a letter are a
placeholder, a doubled marker at the very end is one literal marker, and
any other slice stands for itself. The one thing that can go wrong is a
slice that is no literal, since a half of a surrogate pair stands alone in
it: then there are no tokens, and the first such slice is named.

The tokenizer takes one token after the other and knows nothing of
offsets. What ties the two together is that the first token ends at the
least offset above zero (`FirstCut`), and that the offsets from there on
are those of the rest alone (`FirstCut.isOffset_iff`): a marker right in
front of such an offset cannot make a placeholder with what comes after
it, or there would have been an offset before. All the rest is an
induction over the slices, packaged once (`induction_on_firstCut`).
-/
import Unformat.Directive.Tokens
import Unformat.Proofs.Except

namespace Unformat

-- ============================================================ literals

namespace Token

variable {s : Text}

@[simp] theorem ofText_ofChars (cs : List Char) : ofText (.ofChars cs) = .ok (.literal cs) := by
  rw [ofText, Text.encoded_ofChars]
  rfl

theorem ofText_eq_ok_iff {t : Token} :
    ofText s = .ok t ↔ ∃ cs, s = .ofChars cs ∧ t = .literal cs := by
  simp only [ofText, map_eq_ok_iff, Text.encoded_eq_ok_iff, eq_comm (b := t)]

theorem ofText_eq_error_iff {fault : EncodingFault} : ofText s = .error fault ↔ fault.text = s := by
  rw [ofText, map_eq_error_iff, Text.encoded_eq_error_iff]

end Token

end Unformat

namespace Unformat.Directive

-- ============================================== statement vocabulary

/-- The kind of placeholder that a letter stands for behind a marker. -/
def letterKind? : Char → Option Kind
  | 'b' => some .bool
  | 'i' | 'u' | 'd' => some .int
  | 'c' | 's' => some .string
  | 'e' | 'E' | 'f' | 'F' | 'g' | 'G' => some .decimal
  | 'x' | 'X' => some .hex
  | _ => none

/-- The kind of placeholder that a directive has at an offset: a marker
and a letter stand there. -/
def kindAt? (directive : Text) (p : Nat) : Option Kind :=
  if directive[p]? = some (.char marker) then
    (directive[p + 1]?.bind CodePoint.char?).bind letterKind?
  else none

/-- A directive is cut at an offset: at its ends, in front of a marker
with something behind it, and behind a placeholder. -/
def IsOffset (directive : Text) (p : Nat) : Prop :=
  p = 0 ∨ p = directive.length ∨
    (p + 2 ≤ directive.length ∧ directive[p]? = some (.char marker)) ∨
    ∃ q, q + 2 = p ∧ (kindAt? directive q).isSome

instance (directive : Text) : DecidablePred (IsOffset directive) := fun p =>
  decidable_of_iff
    (p = 0 ∨ p = directive.length ∨
      (p + 2 ≤ directive.length ∧ directive[p]? = some (.char marker)) ∨
      (2 ≤ p ∧ (kindAt? directive (p - 2)).isSome)) (by
    unfold IsOffset
    refine or_congr_right (or_congr_right (or_congr_right ?_))
    constructor
    · intro h
      obtain ⟨hp, hkind⟩ := h
      exact ⟨p - 2, Nat.sub_add_cancel hp, hkind⟩
    · intro h
      obtain ⟨q, rfl, hkind⟩ := h
      exact ⟨Nat.le_add_left 2 q, hkind⟩)

/-- The offsets at which a directive is cut, in order. -/
def cutOffsets (directive : Text) : List Nat :=
  (List.range (directive.length + 1)).filter (IsOffset directive ·)

/-- The slices of a directive between neighbouring offsets. -/
def slices (directive : Text) : List Text :=
  List.zipWith (fun a b => (directive.drop a).take (b - a)) (cutOffsets directive)
    (cutOffsets directive).tail

/-- The token of a slice, which may be the final one, or why there is
none. -/
def tokenOfSlice (final : Bool) (s : Text) : Except EncodingFault Token :=
  match s with
  | [.char m, .char c] =>
      if m ≠ marker then Token.ofText s
      else if c = marker ∧ final then .ok (.literal [marker])
      else match letterKind? c with
        | some kind => .ok (.placeholder kind)
        | none => Token.ofText s
  | _ => Token.ofText s

/-- The tokens of the slices of a directive, one by one. -/
def tokensOfSlices (directive : Text) : List (Except EncodingFault Token) :=
  (slices directive).mapIdx fun i s => tokenOfSlice (i + 1 = (slices directive).length) s

-- ========================================================= specifiers

/-- The specifiers are the marker itself and the letters. -/
theorem lookup_specifiers (c : Char) :
    specifiers.lookup c =
      if c = marker then some (.literal [marker]) else (letterKind? c).map .placeholder := by
  by_cases hc : c = marker
  · subst hc
    rfl
  · rw [if_neg hc]
    unfold letterKind?
    split
    -- the last case is that of every character which is no letter
    case h_15 =>
        rw [Option.map_none, List.lookup_eq_none_iff]
        simp_all [specifiers, marker]
    all_goals rfl

/-- A directive opens with a specifier if it starts with a marker and a
letter, or is no more than a doubled marker. -/
theorem openingSpecifier?_eq_some_iff {directive rest : Text} {t : Token} :
    openingSpecifier? directive = some (t, rest) ↔
      ∃ c, directive = .char marker :: .char c :: rest ∧
        ((c = marker ∧ rest = [] ∧ t = .literal [marker]) ∨
          ∃ kind, letterKind? c = some kind ∧ t = .placeholder kind) := by
  match directive with
  | [] => simp [openingSpecifier?]
  | [p] => simp [openingSpecifier?]
  | .lone half :: p :: ps => simp [openingSpecifier?]
  | .char m :: .lone half :: ps => simp [openingSpecifier?]
  | .char m :: .char c :: ps =>
      simp only [openingSpecifier?, lookup_specifiers]
      constructor
      · intro h
        split at h
        · cases h
        next hspec =>
          obtain ⟨hm, hc⟩ := not_or.mp hspec
          obtain rfl := Decidable.not_not.mp hm
          split at h
          next hmarker =>
            obtain ⟨rfl, rfl⟩ := Prod.mk.inj (Option.some.inj h)
            have hnil : ps = [] := Decidable.byContradiction fun hps => hc ⟨hmarker, hps⟩
            exact ⟨c, rfl, Or.inl ⟨hmarker, hnil, rfl⟩⟩
          next hmarker =>
            rw [Option.map_map, Option.map_eq_some_iff] at h
            obtain ⟨kind, hkind, hpair⟩ := h
            obtain ⟨rfl, rfl⟩ := Prod.mk.inj hpair
            exact ⟨c, rfl, Or.inr ⟨kind, hkind, rfl⟩⟩
      · intro h
        obtain ⟨c', heq, hcase⟩ := h
        obtain ⟨rfl, rfl, rfl⟩ : m = marker ∧ c = c' ∧ ps = rest := by simpa using heq
        rcases hcase with ⟨rfl, rfl, rfl⟩ | ⟨kind, hkind, rfl⟩
        · rfl
        · have hc : c ≠ marker := by
            rintro rfl
            cases hkind
          simp [hc, hkind]

/-- A slice is a marker and a letter, a final doubled marker, or one that
stands for itself. -/
theorem tokenOfSlice_cases (final : Bool) (s : Text) :
    (∃ c kind, s = [.char marker, .char c] ∧ letterKind? c = some kind ∧
      tokenOfSlice final s = .ok (.placeholder kind)) ∨
    (s = [.char marker, .char marker] ∧ final ∧ tokenOfSlice final s = .ok (.literal [marker])) ∨
    tokenOfSlice final s = Token.ofText s := by
  unfold tokenOfSlice
  split
  next m c =>
    split
    · exact Or.inr (Or.inr rfl)
    next hm =>
      obtain rfl := Decidable.not_not.mp hm
      split
      next hdoubled =>
        obtain ⟨rfl, hfinal⟩ := hdoubled
        exact Or.inr (Or.inl ⟨rfl, hfinal, rfl⟩)
      · split
        next kind hletter => exact Or.inl ⟨c, kind, rfl, hletter, rfl⟩
        · exact Or.inr (Or.inr rfl)
  · exact Or.inr (Or.inr rfl)

-- ==================================================== kinds at offsets

theorem kindAt?_eq_some_iff {directive : Text} {p : Nat} {kind : Kind} :
    kindAt? directive p = some kind ↔
      directive[p]? = some (.char marker) ∧
        ∃ c, directive[p + 1]? = some (.char c) ∧ letterKind? c = some kind := by
  unfold kindAt?
  split
  next hp => simp [hp, Option.bind_eq_some_iff, CodePoint.char?_eq_some_iff]
  next hp => simp [hp]

/-- In front of a placeholder a directive is cut. -/
theorem isOffset_of_kindAt? {directive : Text} {p : Nat}
    (h : (kindAt? directive p).isSome) : IsOffset directive p := by
  obtain ⟨kind, hkind⟩ := Option.isSome_iff_exists.mp h
  obtain ⟨hp, c, hc, -⟩ := kindAt?_eq_some_iff.mp hkind
  obtain ⟨hlt, -⟩ := List.getElem?_eq_some_iff.mp hc
  exact Or.inr (Or.inr (Or.inl ⟨hlt, hp⟩))

theorem kindAt?_append (s rest : Text) (p : Nat) :
    kindAt? (s ++ rest) (s.length + p) = kindAt? rest p := by
  unfold kindAt?
  rw [Nat.add_assoc, List.getElem?_append_right (by omega), List.getElem?_append_right (by omega),
    Nat.add_sub_cancel_left, Nat.add_sub_cancel_left]

theorem kindAt?_specifier {c : Char} {kind : Kind} (h : letterKind? c = some kind)
    (rest : Text) : kindAt? (.char marker :: .char c :: rest) 0 = some kind :=
  kindAt?_eq_some_iff.mpr ⟨rfl, c, rfl, h⟩

-- ==================================================== the first token

/-- A directive's first token, or why it is none, comes from the slice that
ends at the least offset above zero. -/
structure FirstCut (first : Except EncodingFault Token) (s rest : Text) : Prop where
  ne_nil : s ≠ []
  isOffset : IsOffset (s ++ rest) s.length
  none_before : ∀ p, 0 < p → p < s.length → ¬ IsOffset (s ++ rest) p
  first_eq : first = tokenOfSlice (rest = []) s
  kind_eq : first.toOption.bind Token.kind? = kindAt? (s ++ rest) 0
  tokens_eq : tokens (s ++ rest) = first.bind fun t => (tokens rest).map (t :: ·)

/-- A marker and a letter are the first token. -/
theorem firstCut_letter {c : Char} {kind : Kind} (h : letterKind? c = some kind) (rest : Text) :
    FirstCut (.ok (.placeholder kind)) [.char marker, .char c] rest where
  ne_nil := List.cons_ne_nil _ _
  isOffset := by
    refine Or.inr (Or.inr (Or.inr ⟨0, rfl, ?_⟩))
    rw [List.cons_append, List.cons_append, kindAt?_specifier h]
    rfl
  none_before p h0 hp hoff := by
    obtain rfl : p = 1 := by
      simp only [List.length_cons, List.length_nil] at hp
      omega
    rcases hoff with hzero | hend | ⟨-, hmarker⟩ | ⟨q, hq, -⟩
    · omega
    · simp at hend
    · obtain rfl : c = marker := CodePoint.char.inj (Option.some.inj hmarker)
      cases h
    · omega
  first_eq := by
    have hc : c ≠ marker := by
      rintro rfl
      cases h
    simp [tokenOfSlice, hc, h]
  kind_eq := by
    rw [List.cons_append, List.cons_append, kindAt?_specifier h]
    rfl
  tokens_eq := by
    refine tokens_of_firstToken? ?_
    have hopen : openingSpecifier? (.char marker :: .char c :: rest)
        = some (.placeholder kind, rest) :=
      openingSpecifier?_eq_some_iff.mpr ⟨c, rfl, Or.inr ⟨kind, h, rfl⟩⟩
    simp only [firstToken?, List.cons_append, List.nil_append, hopen]

/-- A doubled marker at the end is the first token. -/
theorem firstCut_doubled :
    FirstCut (.ok (.literal [marker])) [.char marker, .char marker] [] where
  ne_nil := List.cons_ne_nil _ _
  isOffset := Or.inr (Or.inl rfl)
  none_before p h0 hp hoff := by
    obtain rfl : p = 1 := by
      simp only [List.length_cons, List.length_nil] at hp
      omega
    revert hoff
    decide
  first_eq := rfl
  kind_eq := rfl
  tokens_eq := tokens_of_firstToken? rfl

/-- Within a plain run a marker is the last code point of all. -/
theorem length_eq_of_marker_spanPlain {ps : Text} {i : Nat}
    (h : (spanPlain ps).1[i]? = some (.char marker)) : i + 1 = ps.length := by
  induction ps generalizing i with
  | nil => simp [spanPlain] at h
  | cons p ps ih =>
      simp only [spanPlain] at h
      split at h
      · simp at h
      next hplain =>
        cases i with
        | zero =>
            obtain rfl : p = .char marker := Option.some.inj h
            have hnil : ps = [] := Decidable.byContradiction fun hps => hplain ⟨rfl, hps⟩
            rw [hnil]
            rfl
        | succ i => rw [ih h, List.length_cons]

/-- Behind a plain run stands nothing, or a marker with something behind
it. -/
theorem spanPlain_snd (ps : Text) :
    (spanPlain ps).2 = [] ∨ ∃ p rest, (spanPlain ps).2 = .char marker :: p :: rest := by
  induction ps with
  | nil => exact Or.inl rfl
  | cons p ps ih =>
      simp only [spanPlain]
      split
      next hopens =>
        obtain ⟨rfl, hps⟩ := hopens
        obtain ⟨q, qs, rfl⟩ := List.exists_cons_of_ne_nil hps
        exact Or.inr ⟨q, qs, rfl⟩
      · exact ih

/-- A literal is no placeholder, whether it can be encoded or not. -/
theorem kind?_ofText (s : Text) : (Token.ofText s).toOption.bind Token.kind? = none := by
  cases h : Token.ofText s with
  | error fault => rfl
  | ok t =>
      obtain ⟨cs, -, rfl⟩ := Token.ofText_eq_ok_iff.mp h
      rfl

/-- Where no specifier opens a directive, the first token comes from the
first code point and the plain run behind it. -/
theorem firstCut_plain {p : CodePoint} {ps : Text} (h : openingSpecifier? (p :: ps) = none) :
    FirstCut (Token.ofText (p :: (spanPlain ps).1)) (p :: (spanPlain ps).1) (spanPlain ps).2 := by
  have hwhole : p :: (spanPlain ps).1 ++ (spanPlain ps).2 = p :: ps := by
    rw [List.cons_append, spanPlain_append]
  have hnone : kindAt? (p :: ps) 0 = none := by
    cases hkind : kindAt? (p :: ps) 0 with
    | none => rfl
    | some kind =>
        obtain ⟨hmarker, c, hc, hletter⟩ := kindAt?_eq_some_iff.mp hkind
        obtain rfl : p = .char marker := Option.some.inj hmarker
        obtain ⟨q, rest, rfl⟩ : ∃ q rest, ps = q :: rest := by
          cases ps with
          | nil => cases hc
          | cons q rest => exact ⟨q, rest, rfl⟩
        obtain rfl : q = .char c := Option.some.inj hc
        rw [openingSpecifier?_eq_some_iff.mpr ⟨c, rfl, Or.inr ⟨kind, hletter, rfl⟩⟩] at h
        cases h
  refine ⟨List.cons_ne_nil _ _, ?_, ?_, ?_, ?_, ?_⟩
  · rcases spanPlain_snd ps with hnil | ⟨q, rest, hrest⟩
    · rw [hnil, List.append_nil]
      exact Or.inr (Or.inl rfl)
    · rw [hrest]
      refine Or.inr (Or.inr (Or.inl ⟨?_, ?_⟩))
      · simp only [List.length_append, List.length_cons]
        omega
      · rw [List.getElem?_append_right (Nat.le_refl _), Nat.sub_self]
        rfl
  · intro i h0 hi hoff
    -- a marker in the run would be the last code point of all
    have hlast : ∀ j, j < (spanPlain ps).1.length → (p :: ps)[j + 1]? = some (.char marker) →
        j + 2 = (p :: ps).length := by
      intro j hj hmarker
      rw [List.length_cons]
      refine congrArg (· + 1) (length_eq_of_marker_spanPlain (i := j) ?_)
      rw [List.getElem?_cons_succ, ← spanPlain_append ps, List.getElem?_append_left hj] at hmarker
      exact hmarker
    rw [List.length_cons] at hi
    rw [hwhole] at hoff
    have hlen := congrArg List.length hwhole
    rw [List.length_append, List.length_cons] at hlen
    rcases hoff with hzero | hend | ⟨hlt, hmarker⟩ | ⟨j, rfl, hkind⟩
    · omega
    · omega
    · obtain ⟨j, rfl⟩ : ∃ j, i = j + 1 := ⟨i - 1, by omega⟩
      have := hlast j (by omega) hmarker
      omega
    · cases j with
      | zero =>
          rw [hnone] at hkind
          cases hkind
      | succ j =>
          obtain ⟨kind, hkind⟩ := Option.isSome_iff_exists.mp hkind
          obtain ⟨hmarker, c, hc, -⟩ := kindAt?_eq_some_iff.mp hkind
          obtain ⟨hlt, -⟩ := List.getElem?_eq_some_iff.mp hc
          have := hlast j (by omega) hmarker
          omega
  · -- the slice is no specifier, since none opens the directive
    rcases tokenOfSlice_cases (decide ((spanPlain ps).2 = [])) (p :: (spanPlain ps).1) with
      ⟨c, kind, hslice, hletter, -⟩ | ⟨hslice, hfinal, -⟩ | hplain
    · rw [← hwhole, hslice] at hnone
      cases (kindAt?_specifier hletter _).symm.trans hnone
    · rw [← hwhole, hslice, of_decide_eq_true hfinal] at h
      cases h
    · exact hplain.symm
  · rw [hwhole, hnone, kind?_ofText]
  · rw [hwhole]
    refine tokens_of_firstToken? ?_
    simp only [firstToken?, h]

theorem exists_firstCut {directive : Text} (h : directive ≠ []) :
    ∃ first s rest, directive = s ++ rest ∧ FirstCut first s rest := by
  obtain ⟨p, ps, rfl⟩ := List.exists_cons_of_ne_nil h
  cases hopen : openingSpecifier? (p :: ps) with
  | none =>
      refine ⟨_, _, _, ?_, firstCut_plain hopen⟩
      rw [List.cons_append, spanPlain_append]
  | some e =>
      obtain ⟨t, rest⟩ := e
      obtain ⟨d, heq, ⟨rfl, rfl, rfl⟩ | ⟨kind, hletter, rfl⟩⟩ :=
        openingSpecifier?_eq_some_iff.mp hopen
      · exact ⟨_, _, _, heq, firstCut_doubled⟩
      · exact ⟨_, _, _, heq, firstCut_letter hletter rest⟩

/-- What holds of the empty directive, and of one if it holds of the
rest behind its first slice, holds of all. -/
theorem induction_on_firstCut {P : Text → Prop} (nil : P [])
    (cut : ∀ first s rest, FirstCut first s rest → P rest → P (s ++ rest)) (directive : Text) :
    P directive := by
  by_cases h : directive = []
  · exact h ▸ nil
  · obtain ⟨first, s, rest, hwhole, hcut⟩ := exists_firstCut h
    have hpos := List.length_pos_iff.mpr hcut.ne_nil
    have hlt : rest.length < directive.length := by
      rw [hwhole, List.length_append]
      omega
    rw [hwhole]
    exact cut first s rest hcut (induction_on_firstCut nil cut rest)
termination_by directive.length

-- ================================================== the other offsets

namespace FirstCut

variable {first : Except EncodingFault Token} {s rest : Text}

/-- The last code point of the first slice is no marker that makes a
placeholder with the character behind it. -/
theorem kindAt?_last (h : FirstCut first s rest) : kindAt? (s ++ rest) (s.length - 1) = none := by
  have hpos := List.length_pos_iff.mpr h.ne_nil
  cases hkind : kindAt? (s ++ rest) (s.length - 1) with
  | none => rfl
  | some kind =>
      obtain ⟨hmarker, c, hc, hletter⟩ := kindAt?_eq_some_iff.mp hkind
      rw [Nat.sub_add_cancel hpos] at hc
      obtain ⟨hlt, -⟩ := List.getElem?_eq_some_iff.mp hc
      -- the directive is cut in front of that marker, so it is the first code point
      have hone : s.length = 1 := Decidable.byContradiction fun hne => by
        refine h.none_before (s.length - 1) (by omega) (by omega) (isOffset_of_kindAt? ?_)
        rw [hkind]
        rfl
      rcases h.isOffset with hzero | hend | ⟨-, hmarker'⟩ | ⟨q, hq, -⟩
      · omega
      · omega
      · rw [hc] at hmarker'
        obtain rfl := CodePoint.char.inj (Option.some.inj hmarker')
        cases hletter
      · omega

/-- From the first token on, a directive is cut where the rest alone
would be. -/
theorem isOffset_iff (h : FirstCut first s rest) (p : Nat) :
    IsOffset (s ++ rest) (s.length + p) ↔ IsOffset rest p := by
  have hpos := List.length_pos_iff.mpr h.ne_nil
  rcases Nat.eq_zero_or_pos p with rfl | hp
  · exact iff_of_true h.isOffset (Or.inl rfl)
  have hkind : (∃ q, q + 2 = s.length + p ∧ (kindAt? (s ++ rest) q).isSome) ↔
      ∃ q, q + 2 = p ∧ (kindAt? rest q).isSome := by
    constructor
    · intro h
      obtain ⟨q, hq, hsome⟩ := h
      by_cases hlast : q = s.length - 1
      · rw [hlast, h.kindAt?_last] at hsome
        cases hsome
      · obtain ⟨q, rfl⟩ : ∃ q', q = s.length + q' := Nat.exists_eq_add_of_le (by omega)
        rw [kindAt?_append] at hsome
        exact ⟨q, by omega, hsome⟩
    · intro h
      obtain ⟨q, rfl, hsome⟩ := h
      refine ⟨s.length + q, by omega, ?_⟩
      rw [kindAt?_append]
      exact hsome
  unfold IsOffset
  rw [hkind, List.length_append, List.getElem?_append_right (by omega), Nat.add_sub_cancel_left]
  simp only [Nat.add_assoc, Nat.add_le_add_iff_left, Nat.add_left_cancel_iff]
  rw [or_congr_left (b := p = 0)]
  omega

theorem cutOffsets_eq (h : FirstCut first s rest) :
    cutOffsets (s ++ rest) = 0 :: (cutOffsets rest).map (s.length + ·) := by
  have hpos := List.length_pos_iff.mpr h.ne_nil
  -- within the first slice there is no offset but its start
  have hfront : (List.range s.length).filter (IsOffset (s ++ rest) ·) = [0] := by
    obtain ⟨n, hn⟩ : ∃ n, s.length = n + 1 := ⟨s.length - 1, by omega⟩
    rw [hn, List.range_succ_eq_map, List.filter_cons_of_pos (by simp [IsOffset]),
      List.filter_eq_nil_iff.mpr]
    intro p hp
    obtain ⟨q, hq, rfl⟩ := List.mem_map.mp hp
    rw [List.mem_range] at hq
    simpa using h.none_before (q + 1) (by omega) (by omega)
  have hback : (List.range (rest.length + 1)).filter
        ((fun p => decide (IsOffset (s ++ rest) p)) ∘ (s.length + ·)) = cutOffsets rest := by
    refine List.filter_congr fun p _ => ?_
    exact decide_eq_decide.mpr (h.isOffset_iff p)
  unfold cutOffsets at hback ⊢
  rw [List.length_append, Nat.add_assoc, List.range_add, List.filter_append, hfront,
    List.filter_map, hback]
  rfl

end FirstCut

/-- The first offset is zero. -/
theorem cutOffsets_eq_cons (directive : Text) :
    ∃ offsets, cutOffsets directive = 0 :: offsets := by
  unfold cutOffsets
  rw [List.range_succ_eq_map, List.filter_cons_of_pos (by simp [IsOffset])]
  exact ⟨_, rfl⟩

@[simp] theorem slices_nil : slices [] = [] := rfl

/-- The first slice, and the slices of the rest. -/
theorem FirstCut.slices_eq {first : Except EncodingFault Token} {s rest : Text}
    (h : FirstCut first s rest) : slices (s ++ rest) = s :: slices rest := by
  obtain ⟨offsets, hoffsets⟩ := cutOffsets_eq_cons rest
  have hshift : ∀ a b, ((s ++ rest).drop (s.length + a)).take (s.length + b - (s.length + a))
      = (rest.drop a).take (b - a) := fun a b => by
    rw [List.drop_length_add_append, Nat.add_sub_add_left]
  unfold slices
  rw [h.cutOffsets_eq, hoffsets]
  show ((s ++ rest).drop 0).take (s.length + 0 - 0) ::
      List.zipWith _ ((0 :: offsets).map (s.length + ·)) (offsets.map (s.length + ·)) = _
  rw [List.zipWith_map, List.drop_zero, Nat.add_zero, Nat.sub_zero, List.take_left]
  simp only [hshift, List.tail_cons]

/-- Nothing is lost between the slices. -/
theorem flatten_slices (directive : Text) : (slices directive).flatten = directive := by
  induction directive using induction_on_firstCut with
  | nil => rfl
  | cut first s rest hcut ih => rw [hcut.slices_eq, List.flatten_cons, ih]

theorem slices_eq_nil_iff {directive : Text} : slices directive = [] ↔ directive = [] := by
  constructor
  · intro h
    rw [← flatten_slices directive, h]
    rfl
  · rintro rfl
    rfl

-- ======================================================== the tokens

/-- The first slice's token, and those of the rest. -/
theorem FirstCut.tokensOfSlices_eq {first : Except EncodingFault Token} {s rest : Text}
    (h : FirstCut first s rest) : tokensOfSlices (s ++ rest) = first :: tokensOfSlices rest := by
  unfold tokensOfSlices
  rw [h.slices_eq, List.mapIdx_cons, h.first_eq]
  simp only [List.length_cons, Nat.add_right_cancel_iff, eq_comm (a := 0),
    List.length_eq_zero_iff, slices_eq_nil_iff]

/-- Tokens are those of a directive if they are those of its slices. -/
theorem tokens_eq_ok_iff {directive : Text} {ts : List Token} :
    tokens directive = .ok ts ↔ tokensOfSlices directive = ts.map .ok := by
  induction directive using induction_on_firstCut generalizing ts with
  | nil =>
      rw [tokens_nil]
      cases ts with
      | nil => exact iff_of_true rfl rfl
      | cons t ts => exact iff_of_false nofun nofun
  | cut first s rest hcut ih =>
      rw [hcut.tokens_eq, hcut.tokensOfSlices_eq]
      cases first with
      | error fault => cases ts <;> exact iff_of_false nofun nofun
      | ok t =>
          show (tokens rest).map (t :: ·) = .ok ts ↔ _
          rw [map_eq_ok_iff]
          cases ts with
          | nil => simp
          | cons t' ts => simpa [ih] using and_comm

/-- Only a slice that cannot be encoded has no token. -/
theorem tokenOfSlice_eq_error_iff {final : Bool} {s : Text} {fault : EncodingFault} :
    tokenOfSlice final s = .error fault ↔ fault.text = s := by
  rcases tokenOfSlice_cases final s with ⟨c, kind, rfl, -, h⟩ | ⟨rfl, -, h⟩ | h
  · rw [h]
    exact iff_of_false nofun (fault.text_ne_ofChars [marker, c])
  · rw [h]
    exact iff_of_false nofun (fault.text_ne_ofChars [marker, marker])
  · rw [h, Token.ofText_eq_error_iff]

/-- A slice has a token exactly if it can be encoded. -/
theorem exists_tokenOfSlice_iff {final : Bool} {s : Text} :
    (∃ t, tokenOfSlice final s = .ok t) ↔ s.chars?.isSome := by
  cases htoken : tokenOfSlice final s with
  | error fault =>
      rw [← tokenOfSlice_eq_error_iff.mp htoken, fault.chars?_eq_none]
      exact iff_of_false nofun nofun
  | ok t =>
      refine iff_of_true ⟨t, rfl⟩ (Option.isSome_iff_ne_none.mpr fun hnone => ?_)
      have hfault : tokenOfSlice final s = .error ⟨s, hnone⟩ := tokenOfSlice_eq_error_iff.mpr rfl
      exact nomatch htoken.symm.trans hfault

/-- A directive has no tokens because of its first slice that cannot be
encoded. -/
theorem tokens_eq_error_iff {directive : Text} {fault : EncodingFault} :
    tokens directive = .error fault ↔
      (slices directive).find? (·.chars?.isNone) = some fault.text := by
  induction directive using induction_on_firstCut with
  | nil =>
      rw [tokens_nil]
      exact iff_of_false nofun nofun
  | cut first s rest hcut ih =>
      rw [hcut.tokens_eq, hcut.slices_eq, List.find?_cons]
      cases hfirst : first with
      | error fault' =>
          have hs : fault'.text = s := tokenOfSlice_eq_error_iff.mp (hcut.first_eq ▸ hfirst)
          have hnone : s.chars?.isNone := by
            rw [← hs, fault'.chars?_eq_none]
            rfl
          show Except.error fault' = Except.error fault ↔ _
          simp [hnone, EncodingFault.ext_iff, hs]
      | ok t =>
          have hsome : s.chars?.isSome :=
            exists_tokenOfSlice_iff.mp ⟨t, (hcut.first_eq ▸ hfirst : _ = Except.ok t)⟩
          show (tokens rest).map (t :: ·) = .error fault ↔ _
          rw [map_eq_error_iff, ih]
          simp [Option.isNone_eq_false_iff.mpr hsome]

/-- A directive has tokens exactly if no half of a surrogate pair stands
alone in it. -/
theorem exists_tokens_iff (directive : Text) :
    (∃ ts, tokens directive = .ok ts) ↔ ∀ half, CodePoint.lone half ∉ directive := by
  induction directive using induction_on_firstCut with
  | nil => exact iff_of_true ⟨[], tokens_nil⟩ fun _ => List.not_mem_nil
  | cut first s rest hcut ih =>
      have hfirst : (∃ t, first = .ok t) ↔ ∀ half, CodePoint.lone half ∉ s := by
        rw [hcut.first_eq, exists_tokenOfSlice_iff, Text.isSome_chars?_iff]
      simp only [List.mem_append, not_or, forall_and, ← hfirst, ← ih, hcut.tokens_eq]
      cases first with
      | error fault => exact iff_of_false nofun (fun h => nomatch h.1)
      | ok t =>
          show (∃ ts, (tokens rest).map (t :: ·) = .ok ts) ↔ _
          rw [exists_map_eq_ok_iff]
          exact (and_iff_right ⟨t, rfl⟩).symm

/-- A directive made of characters has tokens. -/
theorem exists_tokens_ofChars (cs : List Char) : ∃ ts, tokens (.ofChars cs) = .ok ts :=
  (exists_tokens_iff _).mpr (Text.isSome_chars?_iff.mp (by simp))

/-- The kinds of the placeholders are those that the directive has at
its offsets, from left to right. -/
theorem kinds_tokensOfSlices (directive : Text) :
    (tokensOfSlices directive).filterMap (fun r => r.toOption.bind Token.kind?)
      = (List.range directive.length).filterMap (kindAt? directive) := by
  induction directive using induction_on_firstCut with
  | nil => rfl
  | cut first s rest hcut ih =>
      have hpos := List.length_pos_iff.mpr hcut.ne_nil
      -- in the first slice only its start can hold a placeholder
      have hfront : (List.range s.length).filterMap (kindAt? (s ++ rest))
          = (kindAt? (s ++ rest) 0).toList := by
        obtain ⟨n, hn⟩ : ∃ n, s.length = n + 1 := ⟨s.length - 1, by omega⟩
        have hnone : (List.range n).filterMap (kindAt? (s ++ rest) ∘ Nat.succ) = [] := by
          refine List.filterMap_eq_nil_iff.mpr fun p hp => ?_
          rw [List.mem_range] at hp
          refine Option.not_isSome_iff_eq_none.mp fun hsome => ?_
          exact hcut.none_before (p + 1) (by omega) (by omega) (isOffset_of_kindAt? hsome)
        rw [hn, List.range_succ_eq_map, List.filterMap_cons, List.filterMap_map, hnone]
        cases kindAt? (s ++ rest) 0 <;> rfl
      have hback : kindAt? (s ++ rest) ∘ (s.length + ·) = kindAt? rest :=
        funext fun p => kindAt?_append s rest p
      rw [hcut.tokensOfSlices_eq, List.length_append, List.range_add, List.filterMap_append,
        hfront, List.filterMap_map, hback, ← ih, List.filterMap_cons, hcut.kind_eq]
      cases kindAt? (s ++ rest) 0 <;> rfl

theorem kinds_tokens {directive : Text} {ts : List Token} (h : tokens directive = .ok ts) :
    ts.filterMap Token.kind? = (List.range directive.length).filterMap (kindAt? directive) := by
  rw [← kinds_tokensOfSlices, tokens_eq_ok_iff.mp h, List.filterMap_map]
  rfl

/-- Only a final doubled marker stands for less than itself. -/
theorem eq_of_tokenOfSlice_eq_literal {final : Bool} {s : Text} {literal : List Char}
    (h : tokenOfSlice final s = .ok (.literal literal)) :
    s = .ofChars literal ∨
      (literal = [marker] ∧ s = [.char marker, .char marker] ∧ final) := by
  rcases tokenOfSlice_cases final s with ⟨c, kind, -, -, h'⟩ | ⟨hs, hfinal, h'⟩ | h'
  · cases h'.symm.trans h
  · exact Or.inr ⟨(Token.literal.inj (Except.ok.inj (h'.symm.trans h))).symm, hs, hfinal⟩
  · obtain ⟨cs, rfl, hliteral⟩ := Token.ofText_eq_ok_iff.mp (h'.symm.trans h)
    rw [Token.literal.inj hliteral]
    exact Or.inl rfl

/-- In front of a doubled marker at the end a directive is cut, and not
between the two. -/
theorem FirstCut.doubled_suffix {first : Except EncodingFault Token} {s rest : Text}
    (h : FirstCut first s rest) (hsuffix : [.char marker, .char marker] <:+ s ++ rest) :
    (s = [.char marker, .char marker] ∧ rest = []) ∨ [.char marker, .char marker] <:+ rest := by
  have hpos := List.length_pos_iff.mpr h.ne_nil
  obtain ⟨front, hfront⟩ := hsuffix
  have hlen := congrArg List.length hfront
  simp only [List.length_append, List.length_cons, List.length_nil] at hlen
  have hoffset : IsOffset (s ++ rest) front.length := by
    rw [← hfront]
    refine Or.inr (Or.inr (Or.inl ⟨by simp, ?_⟩))
    rw [List.getElem?_append_right (Nat.le_refl _), Nat.sub_self]
    rfl
  have hbetween : ¬ IsOffset (s ++ rest) (front.length + 1) := by
    rw [← hfront]
    rintro (hzero | hend | ⟨hlt, -⟩ | ⟨q, hq, hsome⟩)
    · omega
    · simp at hend
    · simp only [List.length_append, List.length_cons, List.length_nil] at hlt
      omega
    · obtain ⟨kind, hkind⟩ := Option.isSome_iff_exists.mp hsome
      obtain ⟨-, c, hc, hletter⟩ := kindAt?_eq_some_iff.mp hkind
      rw [show q + 1 = front.length from by omega, List.getElem?_append_right (Nat.le_refl _),
        Nat.sub_self] at hc
      obtain rfl := CodePoint.char.inj (Option.some.inj hc)
      cases hletter
  have hle : front.length = 0 ∨ s.length ≤ front.length := by
    by_cases h0 : front.length = 0
    · exact Or.inl h0
    · exact Or.inr (Nat.le_of_not_lt fun hlt =>
        h.none_before front.length (by omega) hlt hoffset)
  rcases hle with h0 | hle
  · have hwhole : s.length ≠ 1 := fun hone => hbetween (by
      rw [h0, Nat.zero_add, ← hone]
      exact h.isOffset)
    have hrest : rest = [] := List.eq_nil_of_length_eq_zero (by omega)
    obtain rfl := List.eq_nil_of_length_eq_zero h0
    rw [hrest, List.append_nil] at hfront
    exact Or.inl ⟨hfront.symm, hrest⟩
  · refine Or.inr (List.suffix_of_suffix_length_le ⟨front, hfront⟩ ⟨s, rfl⟩ ?_)
    simp only [List.length_cons, List.length_nil]
    omega

/-- The final slice is a doubled marker exactly if the directive ends in
one. -/
theorem getLast?_slices_eq_doubled_iff (directive : Text) :
    (slices directive).getLast? = some [.char marker, .char marker] ↔
      [.char marker, .char marker] <:+ directive := by
  constructor
  · intro h
    obtain ⟨init, hinit⟩ := List.getLast?_eq_some_iff.mp h
    rw [← flatten_slices directive, hinit, List.flatten_append]
    exact ⟨init.flatten, by simp⟩
  · intro h
    induction directive using induction_on_firstCut with
    | nil => simp at h
    | cut first s rest hcut ih =>
        rw [hcut.slices_eq]
        rcases hcut.doubled_suffix h with ⟨rfl, rfl⟩ | hrest
        · rfl
        · have hlast := ih hrest
          rw [List.getLast?_cons, hlast]
          rfl

/-- The slices of a directive between the offsets at which it is cut make
up all of it, and its tokens are theirs, in order. There are tokens exactly
if no half of a surrogate pair stands alone in the directive; otherwise the
first slice that holds one is the fault. Of the tokens, the placeholders
are the markers with a letter behind them from left to right, and a doubled
marker is an escape only as the last two characters. -/
theorem tokens_eq_slices (directive : Text) :
    (slices directive).flatten = directive ∧
    (∀ ts, tokens directive = .ok ts ↔ tokensOfSlices directive = ts.map .ok) ∧
    ((∃ ts, tokens directive = .ok ts) ↔ ∀ half, CodePoint.lone half ∉ directive) ∧
    (∀ fault, tokens directive = .error fault ↔
      (slices directive).find? (·.chars?.isNone) = some fault.text) ∧
    (∀ ts, tokens directive = .ok ts →
      ts.filterMap Token.kind? = (List.range directive.length).filterMap (kindAt? directive) ∧
      ∀ i s literal, (slices directive)[i]? = some s → ts[i]? = some (.literal literal) →
        s ≠ Text.ofChars literal →
        literal = [marker] ∧ s = [.char marker, .char marker] ∧
          i + 1 = (slices directive).length) ∧
    ((slices directive).getLast? = some [.char marker, .char marker] ↔
      [.char marker, .char marker] <:+ directive) := by
  refine ⟨flatten_slices directive, fun ts => tokens_eq_ok_iff, exists_tokens_iff directive,
    fun fault => tokens_eq_error_iff, fun ts hts => ⟨kinds_tokens hts, ?_⟩,
    getLast?_slices_eq_doubled_iff directive⟩
  intro i s literal hs ht hne
  have hslice := congrArg (fun rs => rs[i]?) (tokens_eq_ok_iff.mp hts)
  simp only [tokensOfSlices, List.getElem?_mapIdx, hs, List.getElem?_map, ht, Option.map_some]
    at hslice
  rcases eq_of_tokenOfSlice_eq_literal (Option.some.inj hslice) with heq | ⟨hliteral, hs, hfinal⟩
  · exact absurd heq hne
  · exact ⟨hliteral, hs, of_decide_eq_true hfinal⟩

/-- A half of a surrogate pair is all of a directive, and its only slice,
but no token. -/
theorem no_tokens_lone_half :
    slices [.lone 0x4FF] = [[.lone 0x4FF]] ∧ ∀ ts, tokens [.lone 0x4FF] ≠ .ok ts := by
  refine ⟨by decide, fun ts hts => ?_⟩
  have hnot := (exists_tokens_iff [.lone 0x4FF]).mp ⟨ts, hts⟩
  exact hnot 0x4FF List.mem_cons_self

-- the first two markers are no escape, for a letter follows them
example :
    slices (Text.ofChars ['%', '%', 'd', '%', '%']) =
      [['%'], ['%', 'd'], ['%', '%']].map Text.ofChars := by
  decide

end Unformat.Directive
