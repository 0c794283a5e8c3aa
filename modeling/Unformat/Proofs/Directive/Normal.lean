/-
Which token sequences directives have, and how to spell them back. The
tokens of a directive are normal (`IsNormal`), every normal sequence has
spellings (`Spells`), and all of them are directives with exactly these
tokens (`tokens_respelled`). A directive has tokens at all exactly if no
half of a surrogate pair stands alone in it.

A literal is spelled by its own text, so what stands around it decides
whether it is read back as one token. The two halves of the proof meet
at a condition on a literal and what is behind it in the directive
(`Precedes`):

- a first slice that stands for itself meets it (`FirstCut.precedes`),
  which gives normal tokens one by one;
- a literal that meets it is the first token (`Precedes.tokens_append`),
  which reads a spelling back one by one.

The condition asks for a marker with something behind it, or nothing at
all, behind the literal. That is why a final literal of one marker is
spelled by two: a single one would join the literal in front of it.
-/
import Unformat.Proofs.Directive.Offsets

namespace Unformat.Directive

-- ============================================== statement vocabulary

/-- A token sequence is normal: no placeholder asks for a single
character, no literal is empty or opens with a specifier, a marker is
the first character of a literal or the last one of the last token, and
a literal right behind another starts with a marker. -/
structure IsNormal (ts : List Token) : Prop where
  no_char : Token.placeholder .char ∉ ts
  ne_nil : ∀ literal, Token.literal literal ∈ ts → literal ≠ []
  unspecified : ∀ c run, Token.literal (marker :: c :: run) ∈ ts → specifiers.lookup c = none
  marker_at : ∀ (i j : Nat) (literal : List Char), ts[i]? = some (.literal literal) →
    literal[j]? = some marker → j = 0 ∨ (i + 1 = ts.length ∧ j + 1 = literal.length)
  adjacent : ∀ (i : Nat) (literal literal' : List Char), ts[i]? = some (.literal literal) →
    ts[i + 1]? = some (.literal literal') → literal'.head? = some marker

/-- How tokens are spelled: a placeholder by a marker and any letter of
its kind, a literal by its text, but by a doubled marker if it is a
single one and the last token. -/
inductive Spells : List Token → Text → Prop where
  | nil : Spells [] []
  | doubled : Spells [.literal [marker]] [.char marker, .char marker]
  | literal {literal : List Char} {ts : List Token} {directive : Text} :
      (literal = [marker] → ts ≠ []) → Spells ts directive →
      Spells (.literal literal :: ts) (.ofChars literal ++ directive)
  | placeholder {kind : Kind} {c : Char} {ts : List Token} {directive : Text} :
      specifiers.lookup c = some (.placeholder kind) → Spells ts directive →
      Spells (.placeholder kind :: ts) (.char marker :: .char c :: directive)

-- ========================================================= specifiers

theorem lookup_eq_placeholder_iff {c : Char} {kind : Kind} :
    specifiers.lookup c = some (.placeholder kind) ↔ letterKind? c = some kind := by
  rw [lookup_specifiers]
  by_cases hc : c = marker
  · subst hc
    simp [show letterKind? marker = none from rfl]
  · simp [hc]

theorem lookup_eq_none_iff {c : Char} :
    specifiers.lookup c = none ↔ c ≠ marker ∧ letterKind? c = none := by
  rw [lookup_specifiers]
  by_cases hc : c = marker
  · simp [hc]
  · simp [hc]

/-- No letter asks for a single character, and every other kind has
one. -/
theorem exists_letter_iff (kind : Kind) :
    (∃ c, letterKind? c = some kind) ↔ kind ≠ .char := by
  constructor
  · rintro ⟨c, hc⟩ rfl
    unfold letterKind? at hc
    split at hc <;> cases hc
  · intro hkind
    cases kind with
    | string => exact ⟨'s', rfl⟩
    | char => exact absurd rfl hkind
    | bool => exact ⟨'b', rfl⟩
    | int => exact ⟨'i', rfl⟩
    | decimal => exact ⟨'e', rfl⟩
    | hex => exact ⟨'x', rfl⟩

-- ============================================ literals in a directive

/-- What a literal and the rest of a directive owe to each other if the
literal is to be a token: it opens with no specifier, a marker in it is
its first code point or the last one of all, and what is behind it is
nothing or starts with a marker that is not the last code point. -/
structure Precedes (literal behind : Text) : Prop where
  ne_nil : literal ≠ []
  unspecified : ∀ c run, literal = .char marker :: .char c :: run → specifiers.lookup c = none
  marker_at : ∀ j, literal[j]? = some (.char marker) →
    j = 0 ∨ (behind = [] ∧ j + 1 = literal.length)
  behind : behind = [] ∨ ∃ p rest, behind = .char marker :: p :: rest

/-- A plain run ends where a marker with something behind it stands, or
where all ends. -/
theorem spanPlain_append_eq {run behind : Text}
    (hrun : ∀ j, run[j]? = some (.char marker) → behind = [] ∧ j + 1 = run.length)
    (hbehind : behind = [] ∨ ∃ p rest, behind = .char marker :: p :: rest) :
    spanPlain (run ++ behind) = (run, behind) := by
  induction run with
  | nil =>
      rcases hbehind with rfl | ⟨p, rest, rfl⟩
      · rfl
      · simp [spanPlain]
  | cons p run ih =>
      have hplain : ¬ (p = .char marker ∧ run ++ behind ≠ []) := by
        rintro ⟨rfl, hne⟩
        obtain ⟨rfl, hlen⟩ := hrun 0 rfl
        obtain rfl : run = [] := List.eq_nil_of_length_eq_zero (by simpa using hlen.symm)
        exact hne rfl
      have htail : spanPlain (run ++ behind) = (run, behind) := by
        refine ih fun j hj => ?_
        obtain ⟨hnil, hlen⟩ := hrun (j + 1) hj
        exact ⟨hnil, Nat.succ.inj hlen⟩
      rw [List.cons_append, spanPlain, if_neg hplain, htail]

namespace Precedes

variable {literal behind : Text}

/-- Neither the literal itself nor a single marker with what is behind
it opens with a specifier. -/
theorem openingSpecifier?_eq_none (h : Precedes literal behind) :
    openingSpecifier? (literal ++ behind) = none := by
  cases hopen : openingSpecifier? (literal ++ behind) with
  | none => rfl
  | some e =>
      obtain ⟨t, rest⟩ := e
      obtain ⟨c, hwhole, hcase⟩ := openingSpecifier?_eq_some_iff.mp hopen
      match literal, h with
      | [], h => exact absurd rfl h.ne_nil
      | [m], h =>
          obtain ⟨-, hrest⟩ := List.cons.inj hwhole
          rcases h.behind with rfl | ⟨p, rest', rfl⟩
          · cases hrest
          · -- the code point behind the marker is another one, and not the last
            obtain ⟨hmarker, rfl⟩ := List.cons.inj hrest
            obtain rfl := CodePoint.char.inj hmarker
            rcases hcase with ⟨-, hnil, -⟩ | ⟨kind, hletter, -⟩
            · cases hnil
            · cases hletter
      | m :: p :: run, h =>
          obtain ⟨rfl, hrest⟩ := List.cons.inj hwhole
          obtain ⟨rfl, -⟩ := List.cons.inj hrest
          obtain ⟨hc, hnone⟩ := lookup_eq_none_iff.mp (h.unspecified c run rfl)
          rcases hcase with ⟨hmarker, -⟩ | ⟨kind, hletter, -⟩
          · exact absurd hmarker hc
          · rw [hnone] at hletter
            cases hletter

/-- The literal is the first token, or why there is none. -/
theorem tokens_append (h : Precedes literal behind) :
    tokens (literal ++ behind) =
      (Token.ofText literal).bind fun t => (tokens behind).map (t :: ·) := by
  have hopen := h.openingSpecifier?_eq_none
  obtain ⟨p, run, rfl⟩ := List.exists_cons_of_ne_nil h.ne_nil
  have hspan : spanPlain (run ++ behind) = (run, behind) := by
    refine spanPlain_append_eq (fun j hj => ?_) h.behind
    rcases h.marker_at (j + 1) hj with hzero | ⟨hnil, hlen⟩
    · cases hzero
    · exact ⟨hnil, Nat.succ.inj hlen⟩
  refine tokens_of_firstToken? ?_
  rw [List.cons_append] at hopen
  simp only [firstToken?, List.cons_append, hopen, hspan]

end Precedes

-- ==================================================== the first slice

section FirstSlice

variable {first : Except EncodingFault Token} {s rest : Text}

/-- The first slice is a placeholder, a doubled marker that is all of the
directive, or one that stands for itself. -/
theorem FirstCut.cases (h : FirstCut first s rest) :
    (∃ c kind, s = [.char marker, .char c] ∧ letterKind? c = some kind ∧
      first = .ok (.placeholder kind)) ∨
    (s = [.char marker, .char marker] ∧ rest = [] ∧ first = .ok (.literal [marker])) ∨
    first = Token.ofText s := by
  rw [h.first_eq]
  refine (tokenOfSlice_cases _ s).imp_right (Or.imp_left fun hdoubled => ?_)
  exact ⟨hdoubled.1, of_decide_eq_true hdoubled.2.1, hdoubled.2.2⟩

/-- Where there are tokens, one is that of the first slice and the others
are those of the rest. -/
theorem FirstCut.of_tokens_eq_ok {ts : List Token} (h : FirstCut first s rest)
    (hts : tokens (s ++ rest) = .ok ts) :
    ∃ t ts', first = .ok t ∧ tokens rest = .ok ts' ∧ ts = t :: ts' := by
  rw [h.tokens_eq] at hts
  obtain ⟨t, hfirst, hrest⟩ := bind_eq_ok_iff.mp hts
  obtain ⟨ts', hts', rfl⟩ := map_eq_ok_iff.mp hrest
  exact ⟨t, ts', hfirst, hts', rfl⟩

/-- A first slice that stands for itself opens with no specifier. -/
theorem FirstCut.lookup_eq_none {c : Char} {run : Text}
    (h : FirstCut (Token.ofText (.char marker :: .char c :: run))
      (.char marker :: .char c :: run) rest) :
    specifiers.lookup c = none := by
  refine lookup_eq_none_iff.mpr ⟨?_, ?_⟩
  · rintro rfl
    by_cases hall : run ++ rest = []
    · -- a doubled marker that is all of the directive is the escape
      obtain ⟨rfl, rfl⟩ := List.append_eq_nil_iff.mp hall
      cases (Token.ofText_ofChars [marker, marker]).symm.trans h.first_eq
    · have hpos := List.length_pos_iff.mpr hall
      refine h.none_before 1 Nat.one_pos (by simp) (.inr (.inr (.inl ⟨?_, rfl⟩)))
      simp only [List.cons_append, List.length_cons]
      omega
  · refine Option.eq_none_iff_forall_ne_some.mpr fun kind hletter => ?_
    have hkind := h.kind_eq
    rw [kind?_ofText, List.cons_append, List.cons_append, kindAt?_specifier hletter] at hkind
    cases hkind

/-- A marker inside of a first slice that stands for itself is the last
code point of the directive. -/
theorem FirstCut.marker_at (h : FirstCut (Token.ofText s) s rest) {j : Nat}
    (hj : s[j]? = some (.char marker)) : j = 0 ∨ (rest = [] ∧ j + 1 = s.length) := by
  have hlen : (s ++ rest).length = s.length + rest.length := List.length_append
  obtain ⟨hlt, -⟩ := List.getElem?_eq_some_iff.mp hj
  by_cases hzero : j = 0
  · exact .inl hzero
  · -- the directive would be cut in front of that marker if anything came behind it
    have hlast : ¬ j + 2 ≤ (s ++ rest).length := fun hle => by
      refine h.none_before j (Nat.pos_of_ne_zero hzero) hlt (.inr (.inr (.inl ⟨hle, ?_⟩)))
      rw [List.getElem?_append_left hlt]
      exact hj
    refine .inr ⟨List.eq_nil_of_length_eq_zero ?_, ?_⟩ <;> omega

/-- Behind a first slice that stands for itself there is nothing, or a
marker with something behind it. -/
theorem FirstCut.behind (h : FirstCut (Token.ofText s) s rest) :
    rest = [] ∨ ∃ p rest', rest = .char marker :: p :: rest' := by
  have hlen : (s ++ rest).length = s.length + rest.length := List.length_append
  have hpos := List.length_pos_iff.mpr h.ne_nil
  rcases h.isOffset with hzero | hend | ⟨hle, hmarker⟩ | ⟨q, hq, hsome⟩
  · omega
  · exact .inl (List.eq_nil_of_length_eq_zero (by omega))
  · rw [List.getElem?_append_right (Nat.le_refl _), Nat.sub_self] at hmarker
    match rest with
    | [] => cases hmarker
    | [_] =>
        simp only [List.length_cons, List.length_nil] at hlen
        omega
    | m :: p :: rest =>
        obtain rfl := Option.some.inj hmarker
        exact .inr ⟨p, rest, rfl⟩
  · -- a placeholder at the end of the slice would be all of it
    have hfirst : q = 0 := Decidable.byContradiction fun hne =>
      h.none_before q (Nat.pos_of_ne_zero hne) (by omega) (isOffset_of_kindAt? hsome)
    rw [hfirst, ← h.kind_eq, kind?_ofText] at hsome
    cases hsome

/-- A first slice that stands for itself owes to the rest what a literal
does. -/
theorem FirstCut.precedes (h : FirstCut (Token.ofText s) s rest) : Precedes s rest where
  ne_nil := h.ne_nil
  unspecified c run hs := by
    subst hs
    exact h.lookup_eq_none
  marker_at j hj := h.marker_at hj
  behind := h.behind

end FirstSlice

/-- A marker that is all that is left is a literal, however it is
spelled. -/
theorem precedes_marker : Precedes (.ofChars [marker]) [] where
  ne_nil := List.cons_ne_nil _ _
  unspecified c run hrun := by cases hrun
  marker_at j hj := by
    obtain ⟨hlt, -⟩ := List.getElem?_eq_some_iff.mp hj
    exact .inl (by simpa using hlt)
  behind := .inl rfl

-- =================================================== normal sequences

theorem isNormal_nil : IsNormal [] where
  no_char := List.not_mem_nil
  ne_nil _ h := absurd h List.not_mem_nil
  unspecified _ _ h := absurd h List.not_mem_nil
  marker_at i j literal h := by simp at h
  adjacent i literal literal' h := by simp at h

/-- What a first token owes to the rest of a normal sequence. -/
def HeadNormal : Token → List Token → Prop
  | .placeholder kind, _ => kind ≠ .char
  | .literal literal, ts =>
      literal ≠ [] ∧ (∀ c run, literal = marker :: c :: run → specifiers.lookup c = none) ∧
      (∀ j, literal[j]? = some marker → j = 0 ∨ (ts = [] ∧ j + 1 = literal.length)) ∧
      ∀ literal', ts[0]? = some (.literal literal') → literal'.head? = some marker

theorem IsNormal.head {t : Token} {ts : List Token} (h : IsNormal (t :: ts)) :
    HeadNormal t ts := by
  cases t with
  | placeholder kind =>
      rintro rfl
      exact h.no_char List.mem_cons_self
  | literal literal =>
      refine ⟨h.ne_nil literal List.mem_cons_self, ?_, fun j hj => ?_,
        fun literal' => h.adjacent 0 literal literal' rfl⟩
      · rintro c run rfl
        exact h.unspecified c run List.mem_cons_self
      · have := h.marker_at 0 j literal rfl hj
        rwa [List.length_cons, Nat.add_right_cancel_iff, eq_comm (a := 0),
          List.length_eq_zero_iff] at this

theorem IsNormal.tail {t : Token} {ts : List Token} (h : IsNormal (t :: ts)) : IsNormal ts where
  no_char hmem := h.no_char (List.mem_cons_of_mem t hmem)
  ne_nil literal hmem := h.ne_nil literal (List.mem_cons_of_mem t hmem)
  unspecified c run hmem := h.unspecified c run (List.mem_cons_of_mem t hmem)
  marker_at i j literal hi hj := by
    have := h.marker_at (i + 1) j literal hi hj
    rwa [List.length_cons, Nat.add_right_cancel_iff] at this
  adjacent i := h.adjacent (i + 1)

theorem IsNormal.cons {t : Token} {ts : List Token} (hhead : HeadNormal t ts) (h : IsNormal ts) :
    IsNormal (t :: ts) where
  no_char hmem := by
    rcases List.mem_cons.mp hmem with rfl | hmem
    · exact hhead rfl
    · exact h.no_char hmem
  ne_nil literal hmem := by
    rcases List.mem_cons.mp hmem with rfl | hmem
    · exact hhead.1
    · exact h.ne_nil literal hmem
  unspecified c run hmem := by
    rcases List.mem_cons.mp hmem with rfl | hmem
    · exact hhead.2.1 c run rfl
    · exact h.unspecified c run hmem
  marker_at i j literal hi hj := by
    rw [List.length_cons, Nat.add_right_cancel_iff]
    cases i with
    | zero =>
        obtain rfl := Option.some.inj hi
        rw [eq_comm (a := 0), List.length_eq_zero_iff]
        exact hhead.2.2.1 j hj
    | succ i => exact h.marker_at i j literal hi hj
  adjacent i literal literal' hi hi' := by
    cases i with
    | zero =>
        obtain rfl := Option.some.inj hi
        exact hhead.2.2.2 literal' hi'
    | succ i => exact h.adjacent i literal literal' hi hi'

-- ================================================ tokens are normal

/-- A directive that starts with a marker has a first token that starts
with it, if that is a literal. -/
theorem head?_of_tokens_marker {rest : Text} {literal : List Char} {ts : List Token}
    (h : tokens (.char marker :: rest) = .ok (.literal literal :: ts)) :
    literal.head? = some marker := by
  obtain ⟨first, s, rest', hwhole, hcut⟩ := exists_firstCut (List.cons_ne_nil (.char marker) rest)
  rw [hwhole] at h
  obtain ⟨t, ts', hfirst, -, hts⟩ := hcut.of_tokens_eq_ok h
  obtain ⟨rfl, -⟩ := List.cons.inj hts
  rcases hcut.cases with ⟨c, kind, -, -, ht⟩ | ⟨-, -, ht⟩ | ht
  · cases hfirst.symm.trans ht
  · obtain rfl := Token.literal.inj (Except.ok.inj (hfirst.symm.trans ht))
    rfl
  · obtain ⟨cs, rfl, hliteral⟩ := Token.ofText_eq_ok_iff.mp (ht.symm.trans hfirst)
    obtain rfl := Token.literal.inj hliteral
    cases literal with
    | nil => exact absurd rfl hcut.ne_nil
    | cons c run =>
        obtain rfl : marker = c := CodePoint.char.inj (List.cons.inj hwhole).1
        rfl

/-- A literal that owes to the rest what it does owes to its tokens what a
normal sequence asks for. -/
theorem Precedes.headNormal {literal : List Char} {rest : Text} {ts : List Token}
    (h : Precedes (.ofChars literal) rest) (hts : tokens rest = .ok ts) :
    HeadNormal (.literal literal) ts := by
  have hnil : rest = [] → ts = [] := by
    rintro rfl
    exact (Except.ok.inj (tokens_nil.symm.trans hts)).symm
  refine ⟨fun hempty => h.ne_nil (congrArg _ hempty), ?_, fun j hj => ?_, fun literal' hnext => ?_⟩
  · rintro c run rfl
    exact h.unspecified c (Text.ofChars run) rfl
  · have hmarker := h.marker_at j (Text.getElem?_ofChars.mpr hj)
    rw [Text.length_ofChars] at hmarker
    exact hmarker.imp_right (And.imp_left hnil)
  · rcases h.behind with hrest | ⟨p, rest', rfl⟩
    · rw [hnil hrest] at hnext
      cases hnext
    · cases ts with
      | nil => cases hnext
      | cons t ts =>
          obtain rfl := Option.some.inj hnext
          exact head?_of_tokens_marker hts

/-- The first token of a directive owes to the others what a normal
sequence asks for. -/
theorem FirstCut.headNormal {t : Token} {s rest : Text} {ts : List Token}
    (h : FirstCut (.ok t) s rest) (hts : tokens rest = .ok ts) : HeadNormal t ts := by
  rcases h.cases with ⟨c, kind, -, hletter, ht⟩ | ⟨-, rfl, ht⟩ | ht
  · obtain rfl := Except.ok.inj ht
    exact (exists_letter_iff kind).mp ⟨c, hletter⟩
  · obtain rfl := Except.ok.inj ht
    exact precedes_marker.headNormal hts
  · obtain ⟨cs, rfl, rfl⟩ := Token.ofText_eq_ok_iff.mp ht.symm
    exact FirstCut.precedes (ht ▸ h) |>.headNormal hts

theorem isNormal_of_tokens {directive : Text} {ts : List Token} (h : tokens directive = .ok ts) :
    IsNormal ts := by
  induction directive using induction_on_firstCut generalizing ts with
  | nil =>
      obtain rfl := Except.ok.inj (tokens_nil.symm.trans h)
      exact isNormal_nil
  | cut first s rest hcut ih =>
      obtain ⟨t, ts', rfl, hts', rfl⟩ := hcut.of_tokens_eq_ok h
      exact (ih hts').cons (hcut.headNormal hts')

-- ================================================= spelling and reading

/-- A literal of a normal sequence owes to what is behind it what it
should, if that is nothing at the end of the sequence, and otherwise starts
with a marker. -/
theorem HeadNormal.precedes {literal : List Char} {behind : Text} {ts : List Token}
    (h : HeadNormal (.literal literal) ts) (hend : ts = [] → behind = [])
    (hbehind : behind = [] ∨ ∃ p rest, behind = .char marker :: p :: rest) :
    Precedes (.ofChars literal) behind := by
  obtain ⟨hne, hspec, hmarker, -⟩ := h
  refine ⟨fun hempty => hne (Text.ofChars_injective hempty), fun c run hrun => ?_, fun j hj => ?_,
    hbehind⟩
  · obtain ⟨m, cs, rfl, hm, hcs⟩ := List.map_eq_cons_iff.mp hrun
    obtain ⟨d, cs, rfl, hd, -⟩ := List.map_eq_cons_iff.mp hcs
    obtain rfl := CodePoint.char.inj hm
    obtain rfl := CodePoint.char.inj hd
    exact hspec d cs rfl
  · rw [Text.length_ofChars]
    exact (hmarker j (Text.getElem?_ofChars.mp hj)).imp_right (And.imp_left hend)

namespace Spells

variable {ts : List Token} {directive : Text}

theorem eq_nil (h : Spells [] directive) : directive = [] := by
  cases h
  rfl

/-- No token of a normal sequence is spelled by nothing. -/
theorem ne_nil (h : Spells ts directive) (hn : IsNormal ts) (hts : ts ≠ []) : directive ≠ [] := by
  cases h with
  | nil => exact absurd rfl hts
  | doubled => exact List.cons_ne_nil _ _
  | literal _ hrest =>
      refine List.append_ne_nil_of_left_ne_nil (fun hempty => hn.head.1 ?_) _
      exact Text.ofChars_injective hempty
  | placeholder _ hrest => exact List.cons_ne_nil _ _

/-- Behind a literal stands nothing, or the marker of a placeholder or
of the next literal, and that is never the last character. -/
theorem behind_literal {literal : List Char} (h : Spells ts directive)
    (hn : IsNormal (.literal literal :: ts)) :
    directive = [] ∨ ∃ p rest, directive = .char marker :: p :: rest := by
  cases h with
  | nil => exact .inl rfl
  | doubled => exact .inr ⟨.char marker, [], rfl⟩
  | placeholder _ hrest => exact .inr ⟨_, _, rfl⟩
  | @literal next ts rest hfinal hrest =>
      have hmarker : next.head? = some marker := hn.head.2.2.2 next rfl
      match next, hmarker with
      | [m], hmarker =>
          obtain rfl := Option.some.inj hmarker
          obtain ⟨p, rest', rfl⟩ :=
            List.exists_cons_of_ne_nil (hrest.ne_nil hn.tail.tail (hfinal rfl))
          exact .inr ⟨p, rest', rfl⟩
      | m :: c :: run, hmarker =>
          obtain rfl := Option.some.inj hmarker
          exact .inr ⟨.char c, Text.ofChars run ++ rest, rfl⟩

/-- The spelling of a normal sequence has its tokens. -/
theorem tokens_eq (h : Spells ts directive) (hn : IsNormal ts) : tokens directive = .ok ts := by
  induction h with
  | nil => exact tokens_nil
  | doubled =>
      have hcut := firstCut_doubled.tokens_eq
      rwa [List.append_nil, tokens_nil] at hcut
  | @placeholder kind c ts rest hc _ ih =>
      have hcut := (firstCut_letter (lookup_eq_placeholder_iff.mp hc) rest).tokens_eq
      rwa [ih hn.tail] at hcut
  | @literal literal ts rest _ hrest ih =>
      have hprecedes := hn.head.precedes (fun hts => (hts ▸ hrest).eq_nil) (hrest.behind_literal hn)
      rw [hprecedes.tokens_append, Token.ofText_ofChars, ih hn.tail]
      rfl

end Spells

/-- Every normal sequence is spelled by some directive. -/
theorem IsNormal.exists_spells {ts : List Token} (h : IsNormal ts) :
    ∃ directive, Spells ts directive := by
  induction ts with
  | nil => exact ⟨[], .nil⟩
  | cons t ts ih =>
      obtain ⟨directive, hrest⟩ := ih h.tail
      cases t with
      | placeholder kind =>
          obtain ⟨c, hc⟩ := (exists_letter_iff kind).mpr h.head
          exact ⟨_, .placeholder (lookup_eq_placeholder_iff.mpr hc) hrest⟩
      | literal literal =>
          by_cases hfinal : literal = [marker] ∧ ts = []
          · obtain ⟨rfl, rfl⟩ := hfinal
            exact ⟨_, .doubled⟩
          · exact ⟨_, .literal (fun hl hts => hfinal ⟨hl, hts⟩) hrest⟩

-- ==================================================== letters of a kind

/-- What a literal owes to something behind it does not depend on what
that is. -/
theorem Precedes.of_ne_nil {literal behind : Text} (h : Precedes literal behind)
    (hne : behind ≠ []) (p : CodePoint) (rest : Text) :
    Precedes literal (.char marker :: p :: rest) where
  ne_nil := h.ne_nil
  unspecified := h.unspecified
  marker_at j hj := (h.marker_at j hj).imp_right fun hend => absurd hend.1 hne
  behind := .inr ⟨p, rest, rfl⟩

/-- A first slice in front of a placeholder stays the first one if the
placeholder's letter changes. -/
theorem FirstCut.tokens_letter {first : Except EncodingFault Token} {s front rest : Text}
    {c : Char} (h : FirstCut first s (front ++ .char marker :: .char c :: rest)) (c' : Char) :
    tokens (s ++ (front ++ .char marker :: .char c' :: rest)) =
      first.bind fun t => (tokens (front ++ .char marker :: .char c' :: rest)).map (t :: ·) := by
  have hne : front ++ .char marker :: .char c :: rest ≠ [] := by simp
  rcases h.cases with ⟨d, kind, rfl, hletter, rfl⟩ | ⟨-, hnil, -⟩ | rfl
  · exact (firstCut_letter hletter _).tokens_eq
  · exact absurd hnil hne
  · have hprecedes := h.precedes
    match front, hprecedes with
    | [], hprecedes => exact (hprecedes.of_ne_nil hne (.char c') rest).tokens_append
    | m :: front, hprecedes =>
        rcases hprecedes.behind with hnil | ⟨p, rest', hbehind⟩
        · exact absurd hnil hne
        · obtain rfl : m = .char marker := (List.cons.inj hbehind).1
          obtain ⟨q, rest', hrest⟩ :
              ∃ q rest', front ++ .char marker :: .char c' :: rest = q :: rest' :=
            List.exists_cons_of_ne_nil (by simp)
          rw [List.cons_append, hrest]
          exact (hprecedes.of_ne_nil hne q rest').tokens_append

/-- Two letters of a kind are the same to a directive. -/
theorem tokens_letter_congr (front rest : Text) {c c' : Char} {kind : Kind}
    (hc : letterKind? c = some kind) (hc' : letterKind? c' = some kind) :
    tokens (front ++ .char marker :: .char c :: rest) =
      tokens (front ++ .char marker :: .char c' :: rest) := by
  by_cases hfront : front = []
  · subst hfront
    have hcut := (firstCut_letter hc rest).tokens_eq
    have hcut' := (firstCut_letter hc' rest).tokens_eq
    exact hcut.trans hcut'.symm
  · obtain ⟨first, s, behind, hwhole, hcut⟩ := exists_firstCut
      (List.append_ne_nil_of_left_ne_nil hfront (.char marker :: .char c :: rest))
    have hpos := List.length_pos_iff.mpr hfront
    -- a directive is cut in front of a placeholder, so the first slice ends there or before
    have hoffset : IsOffset (s ++ behind) front.length := by
      rw [← hwhole]
      refine isOffset_of_kindAt? ?_
      have hkind := kindAt?_append front (.char marker :: .char c :: rest) 0
      rw [Nat.add_zero, kindAt?_specifier hc] at hkind
      rw [hkind]
      rfl
    have hle : s.length ≤ front.length :=
      Nat.le_of_not_lt fun hlt => hcut.none_before front.length hpos hlt hoffset
    obtain ⟨front', rfl⟩ : s <+: front :=
      List.prefix_of_prefix_length_le ⟨behind, hwhole.symm⟩ (List.prefix_append front _) hle
    obtain rfl : front' ++ .char marker :: .char c :: rest = behind := by
      simpa using hwhole
    have hlt : front'.length < (s ++ front').length := by
      have := List.length_pos_iff.mpr hcut.ne_nil
      rw [List.length_append]
      omega
    rw [List.append_assoc, List.append_assoc, hcut.tokens_eq, hcut.tokens_letter c',
      tokens_letter_congr front' rest hc hc']
termination_by front.length

-- ============================================================ the result

/-- A directive has tokens exactly if no half of a surrogate pair stands
alone in it, and then they are normal and stay the same when they are
spelled and read again. Every normal sequence has spellings, each of which
is a directive with exactly these tokens. A directive keeps its tokens, or
its fault, when a letter gives way to another one of its kind. -/
theorem tokens_respelled (directive : Text) :
    ((∃ ts, tokens directive = .ok ts) ↔ ∀ half, CodePoint.lone half ∉ directive) ∧
    (∀ ts, tokens directive = .ok ts → IsNormal ts ∧
      ∀ directive', Spells ts directive' → tokens directive' = .ok ts) ∧
    (∀ ts, IsNormal ts →
      (∃ directive', Spells ts directive') ∧
      ∀ directive', Spells ts directive' → tokens directive' = .ok ts) ∧
    ∀ (front rest : Text) (c c' : Char) (kind : Kind),
      specifiers.lookup c = some (.placeholder kind) →
      specifiers.lookup c' = some (.placeholder kind) →
      tokens (front ++ .char marker :: .char c :: rest) =
        tokens (front ++ .char marker :: .char c' :: rest) := by
  refine ⟨exists_tokens_iff directive, fun ts hts => ?_,
    fun ts hn => ⟨hn.exists_spells, fun _ h => h.tokens_eq hn⟩, ?_⟩
  · have hn : IsNormal ts := isNormal_of_tokens hts
    exact ⟨hn, fun _ h => h.tokens_eq hn⟩
  · intro front rest c c' kind hc hc'
    exact tokens_letter_congr front rest (lookup_eq_placeholder_iff.mp hc)
      (lookup_eq_placeholder_iff.mp hc')

/-- Not every directive has normal tokens: one in which a half of a
surrogate pair stands alone has none at all. -/
theorem no_normal_tokens_lone_half :
    ¬ ∀ directive, ∃ ts, tokens directive = .ok ts ∧ IsNormal ts := by
  intro h
  obtain ⟨ts, hts, -⟩ := h [.lone 0x4FF]
  have hnot := (exists_tokens_iff _).mp ⟨ts, hts⟩
  exact hnot 0x4FF List.mem_cons_self

-- a single marker at the end would be read with the literal in front of it
example : tokens (.ofChars ['a', '%']) = .ok [.literal ['a', '%']] := by cbv

example : tokens (.ofChars ['a', '%', '%']) = .ok [.literal ['a'], .literal ['%']] := by cbv

end Unformat.Directive
