/-
Directives without placeholders. Such a directive may still be cut into
many literals, one at each marker, but to find one right behind the other
is to compare the text with all of them at once. So the texts that it
matches are those that agree with it character by character up to case;
only a doubled marker at its end stands for a single one
(`Pattern.plain_matches_iff`).

Doubling every marker of a text is therefore no way to quote it, unless
its only marker is its last character. Any other marker stays doubled in
the literals, and a text that has as many characters as they are has none
for the second one.
-/
import Unformat.Proofs.Directive.Normal
import Unformat.Proofs.Match.Live

namespace Unformat

namespace Directive

-- ============================================== statement vocabulary

/-- A directive with a single marker in place of a doubled one at its
end. -/
def unescaped (directive : List Char) : List Char :=
  if [marker, marker] <:+ directive then directive.dropLast else directive

/-- A text with every marker doubled. -/
def doubled (cs : List Char) : List Char :=
  cs.flatMap fun c => if c = marker then [marker, marker] else [c]

-- ====================================================== plain directives

/-- What is in front of a doubled marker at the end stays as it is. -/
theorem unescaped_append {rest : List Char} (s : List Char)
    (h : [marker, marker] <:+ s ++ rest → [marker, marker] <:+ rest) :
    unescaped (s ++ rest) = s ++ unescaped rest := by
  unfold unescaped
  by_cases hrest : [marker, marker] <:+ rest
  · have hne : rest ≠ [] := fun hnil => by
      rw [hnil] at hrest
      exact absurd hrest (by simp)
    rw [if_pos (hrest.trans (List.suffix_append s rest)), if_pos hrest,
      List.dropLast_append_of_ne_nil hne]
  · rw [if_neg (mt h hrest), if_neg hrest]

theorem doubled_suffix_ofChars_iff {cs : List Char} :
    [CodePoint.char marker, .char marker] <:+ Text.ofChars cs ↔ [marker, marker] <:+ cs := by
  constructor
  · intro h
    obtain ⟨front, hfront⟩ := h
    obtain ⟨front, back, rfl, -, hback⟩ := List.append_eq_map_iff.mp hfront
    have hdoubled : back = [marker, marker] := Text.ofChars_injective hback
    exact ⟨front, hdoubled ▸ rfl⟩
  · intro h
    obtain ⟨front, rfl⟩ := h
    exact ⟨Text.ofChars front, (Text.ofChars_append front [marker, marker]).symm⟩

/-- The tokens of a directive without placeholders are literals, and
together they are the directive. -/
theorem exists_literals {cs : List Char} (h : ∀ i, kindAt? (Text.ofChars cs) i = none) :
    ∃ literals : List (List Char), tokens (Text.ofChars cs) = .ok (literals.map .literal) ∧
      literals.flatten = unescaped cs := by
  generalize hdirective : Text.ofChars cs = directive at h ⊢
  induction directive using induction_on_firstCut generalizing cs with
  | nil =>
      obtain rfl : cs = [] := Text.ofChars_injective hdirective
      exact ⟨[], tokens_nil, rfl⟩
  | cut first s rest hcut ih =>
      obtain ⟨l, behind, rfl, rfl, rfl⟩ := List.map_eq_append_iff.mp hdirective
      obtain ⟨literals, htokens, hflatten⟩ := ih rfl fun i => by
        rw [← kindAt?_append (List.map .char l) (List.map .char behind) i]
        exact h _
      have hcons : ∀ literal, first = .ok (.literal literal) →
          tokens (List.map .char l ++ List.map .char behind) =
            .ok ((literal :: literals).map .literal) := fun literal hfirst => by
        rw [hcut.tokens_eq, hfirst, htokens]
        rfl
      have hfirst := hcut.first_eq
      rcases tokenOfSlice_cases (decide (List.map CodePoint.char behind = []))
          (List.map .char l) with ⟨c, kind, -, -, hslice⟩ | ⟨hs, hfinal, hslice⟩ | hslice
      · -- a placeholder would have a kind
        have hkind := hcut.kind_eq
        rw [hfirst, hslice, h 0] at hkind
        cases hkind
      · have hdoubled : l = [marker, marker] := Text.ofChars_injective hs
        have hnil : behind = [] := List.map_eq_nil_iff.mp (of_decide_eq_true hfinal)
        refine ⟨[marker] :: literals, hcons _ (hfirst.trans hslice), ?_⟩
        rw [List.flatten_cons, hflatten, hdoubled, hnil]
        rfl
      · have hliteral : first = .ok (.literal l) :=
          hfirst.trans (hslice.trans (Token.ofText_ofChars l))
        refine ⟨l :: literals, hcons _ hliteral, ?_⟩
        rw [List.flatten_cons, hflatten]
        refine (unescaped_append l fun hsuffix => ?_).symm
        have hends := doubled_suffix_ofChars_iff.mpr hsuffix
        rw [Text.ofChars_append] at hends
        rcases hcut.doubled_suffix hends with ⟨hs, hrest⟩ | hrest
        · -- a doubled marker that is all of the directive is no literal of its own
          have hdoubled : l = [marker, marker] := Text.ofChars_injective hs
          rw [hfirst, hs, hrest, hdoubled] at hliteral
          cases hliteral
        · exact doubled_suffix_ofChars_iff.mp hrest

-- ======================================================= doubled markers

theorem doubled_append (cs ds : List Char) : doubled (cs ++ ds) = doubled cs ++ doubled ds :=
  List.flatMap_append

/-- Each marker makes a doubled text longer by one. -/
theorem length_doubled (cs : List Char) : (doubled cs).length = cs.length + cs.count marker := by
  induction cs with
  | nil => rfl
  | cons c cs ih =>
      rw [← List.singleton_append, doubled_append, List.length_append, ih]
      by_cases hc : c = marker
      · subst hc
        simp [doubled]
        omega
      · simp [doubled, hc]
        omega

theorem doubled_eq_self {cs : List Char} (h : marker ∉ cs) : doubled cs = cs := by
  induction cs with
  | nil => rfl
  | cons c cs ih =>
      obtain ⟨hc, hcs⟩ := not_or.mp (mt List.mem_cons.mpr h)
      rw [← List.singleton_append, doubled_append, ih hcs]
      simp [doubled, Ne.symm hc]

/-- A marker at the end of a text is single again. -/
theorem unescaped_doubled_concat (cs : List Char) (c : Char) :
    unescaped (doubled (cs ++ [c])) = doubled cs ++ [c] := by
  rw [doubled_append]
  unfold unescaped
  by_cases hc : c = marker
  · subst hc
    have hlast : doubled [marker] = [marker, marker] := rfl
    rw [hlast, if_pos (List.suffix_append _ _), List.dropLast_append_of_ne_nil (by simp)]
    rfl
  · have hlast : doubled [c] = [c] := doubled_eq_self (by simpa using Ne.symm hc)
    rw [hlast, if_neg]
    rintro ⟨front, hfront⟩
    have hends := congrArg List.getLast? hfront
    rw [List.getLast?_append, List.getLast?_append] at hends
    exact hc (Option.some.inj hends).symm

/-- With a marker at most as its last character, a doubled text has no
placeholders. -/
theorem kindAt?_doubled_concat {cs : List Char} (h : marker ∉ cs) (c : Char) (i : Nat) :
    kindAt? (Text.ofChars (doubled (cs ++ [c]))) i = none := by
  rw [doubled_append, doubled_eq_self h]
  rcases Nat.lt_or_ge i cs.length with hlt | hge
  · unfold kindAt?
    rw [if_neg]
    intro hmarker
    rw [Text.getElem?_ofChars, List.getElem?_append_left hlt] at hmarker
    exact h (List.mem_of_getElem? hmarker)
  · obtain ⟨j, rfl⟩ := Nat.exists_eq_add_of_le hge
    rw [Text.ofChars_append, ← Text.length_ofChars cs, kindAt?_append]
    by_cases hc : c = marker
    · subst hc
      match j with
      | 0 => rfl
      | 1 => rfl
      | j + 2 => rfl
    · rw [doubled_eq_self (by simpa using Ne.symm hc)]
      cases j with
      | zero => simp [kindAt?]
      | succ j => rfl

/-- Markers stand only at the end of a text if there is none in front of
its last character. -/
theorem marker_not_mem_iff (cs : List Char) (c : Char) :
    marker ∉ cs ↔ ∀ i, (cs ++ [c])[i]? = some marker → i + 1 = (cs ++ [c]).length := by
  rw [List.length_append, List.length_singleton]
  constructor
  · intro h i hi
    obtain ⟨hlt, -⟩ := List.getElem?_eq_some_iff.mp hi
    rw [List.length_append, List.length_singleton] at hlt
    have hge : cs.length ≤ i := Nat.le_of_not_lt fun hfront => by
      rw [List.getElem?_append_left hfront] at hi
      exact h (List.mem_of_getElem? hi)
    omega
  · intro h hmem
    obtain ⟨i, hi⟩ := List.mem_iff_getElem?.mp hmem
    obtain ⟨hlt, -⟩ := List.getElem?_eq_some_iff.mp hi
    have := h i (by rw [List.getElem?_append_left hlt, hi])
    omega

/-- A text with all markers doubled has no placeholders and means that
text if and only if none of them is before the last character. -/
theorem doubled_means_iff (cs : List Char) :
    ((∀ i, kindAt? (Text.ofChars (doubled cs)) i = none) ∧
      SameUpToCase (unescaped (doubled cs)) cs) ↔
      ∀ i, cs[i]? = some marker → i + 1 = cs.length := by
  rcases List.eq_nil_or_concat cs with rfl | ⟨front, c, rfl⟩
  · exact iff_of_true ⟨fun i => rfl, .refl []⟩ fun i hi => by simp at hi
  rw [List.concat_eq_append, unescaped_doubled_concat, ← marker_not_mem_iff]
  constructor
  · intro h
    have hlen := h.2.length_eq
    rw [List.length_append, List.length_append, length_doubled] at hlen
    exact List.count_eq_zero.mp (by omega)
  · intro h
    refine ⟨kindAt?_doubled_concat h c, ?_⟩
    rw [doubled_eq_self h]
    exact .refl _

end Directive

-- ============================================================ matching

/-- A text is cut by literals alone if it agrees with all of them, one
behind the other. -/
theorem exists_isCut_literals_iff (literals : List (List Char)) (cs : List Char) :
    (∃ slices, IsCut (literals.map .literal) cs slices) ↔ SameUpToCase literals.flatten cs := by
  induction literals generalizing cs with
  | nil =>
      simp only [List.map_nil, isCut_nil_iff, exists_eq_right, List.flatten_nil]
      constructor
      · rintro rfl
        exact .refl []
      · exact fun h => List.forall₂_nil_left_iff.mp h
  | cons l literals ih =>
      rw [List.map_cons, List.flatten_cons]
      constructor
      · intro h
        obtain ⟨slices, hcut⟩ := h
        obtain ⟨s, slices, rfl⟩ := hcut.exists_cons
        obtain ⟨hcase, rest, rfl, hrest⟩ := isCut_cons_iff.mp hcut
        exact SameUpToCase.append hcase ((ih rest).mp ⟨slices, hrest⟩)
      · intro h
        obtain ⟨s, rest, rfl, hcase, hrest⟩ := h.split
        obtain ⟨slices, hcut⟩ := (ih rest).mpr hrest
        exact ⟨s :: slices, hcut.cons hcase⟩

namespace Pattern

variable {d : List Char} {ts : List Token} {options : Settings} {t : Text}

/-- The pattern of a directive without types. -/
theorem ofDirective_nil {directive : Text} (h : Directive.tokens directive = .ok ts) :
    Pattern.ofDirective directive [] = .ok ⟨directive, ts, []⟩ :=
  ofDirective_eq_ok_iff.mpr ⟨rfl, h, rfl⟩

/-- Without types only a directive without placeholders matches. -/
theorem kindAt?_of_matches {directive : Text} (htokens : Directive.tokens directive = .ok ts)
    (h : Matches ⟨directive, ts, []⟩ options t) (i : Nat) :
    Directive.kindAt? directive i = none := by
  have hnone : ts.filterMap Token.kind? = [] :=
    List.eq_nil_of_length_eq_zero (check_eq_ok_iff.mp h.check_eq_ok).1
  rw [Directive.kinds_tokens htokens, List.filterMap_eq_nil_iff] at hnone
  by_cases hi : i < directive.length
  · exact hnone i (List.mem_range.mpr hi)
  · unfold Directive.kindAt?
    rw [List.getElem?_eq_none (Nat.le_of_not_lt hi)]
    rfl

/-- Without placeholders and types a text matches as soon as it is cut,
and no values come out. -/
theorem report_plain_iff {literals : List (List Char)} {log : List Event} {values : List Value} :
    report ⟨Text.ofChars d, literals.map .literal, []⟩ options t = .ok ⟨log, .matched values⟩ ↔
      (log = [] ∧ values = []) ∧ ∃ cs, t = Text.ofChars cs ∧ SameUpToCase literals.flatten cs := by
  have hkinds : kinds ⟨Text.ofChars d, literals.map .literal, []⟩ = [] := by
    simp [kinds, List.filterMap_map, Function.comp_def, Token.kind?]
  rw [report_eq_matched_iff, hkinds]
  constructor
  · intro h
    obtain ⟨pieces, hpieces, -, hread⟩ := h
    rw [List.zip_nil_left, List.zip_nil_right] at hread
    cases Except.ok.inj hread
    obtain ⟨cs, slices, ht, hcut, -⟩ := Text.exists_isCut_of_pieces_eq_ok hpieces
    exact ⟨⟨rfl, rfl⟩, cs, ht, (exists_isCut_literals_iff literals cs).mp ⟨slices, hcut⟩⟩
  · intro h
    obtain ⟨⟨rfl, rfl⟩, cs, rfl, hcase⟩ := h
    obtain ⟨slices, hcut⟩ := (exists_isCut_literals_iff literals cs).mpr hcase
    refine ⟨_, Text.pieces_ofChars_eq_ok_iff.mpr ⟨slices, hcut, rfl⟩, rfl, ?_⟩
    rw [List.zip_nil_left, List.zip_nil_right]
    rfl

/-- Without types a directive matches if it has no placeholders, and then
the texts that it means. -/
theorem matches_nil_iff (hts : Directive.tokens (Text.ofChars d) = .ok ts) :
    Matches ⟨Text.ofChars d, ts, []⟩ options t ↔
      (∀ i, Directive.kindAt? (Text.ofChars d) i = none) ∧
        ∃ cs, t = Text.ofChars cs ∧ SameUpToCase (Directive.unescaped d) cs := by
  have hliterals : (∀ i, Directive.kindAt? (Text.ofChars d) i = none) →
      ∃ literals : List (List Char), ts = literals.map .literal ∧
        literals.flatten = Directive.unescaped d := fun hplain => by
    obtain ⟨literals, htokens, hflatten⟩ := Directive.exists_literals hplain
    exact ⟨literals, Except.ok.inj (hts.symm.trans htokens), hflatten⟩
  constructor
  · intro h
    have hplain := kindAt?_of_matches hts h
    obtain ⟨literals, rfl, hflatten⟩ := hliterals hplain
    obtain ⟨log, values, hreport⟩ := h
    rw [report_plain_iff, hflatten] at hreport
    exact ⟨hplain, hreport.2⟩
  · intro h
    obtain ⟨hplain, htext⟩ := h
    obtain ⟨literals, rfl, hflatten⟩ := hliterals hplain
    rw [← hflatten] at htext
    exact ⟨[], [], report_plain_iff.mpr ⟨⟨rfl, rfl⟩, htext⟩⟩

/-- A directive without placeholders, and with no types, matches with no
values the texts that are the same up to case, where a doubled marker at
its end is single. So a text with all its markers doubled matches that
text only if it has none before its last character. -/
theorem plain_matches_iff :
    (∀ d, (∀ i, Directive.kindAt? (Text.ofChars d) i = none) →
      ∃ p, Pattern.ofDirective (Text.ofChars d) [] = .ok p ∧
      ∀ options t, (∃ log, p.report options t = .ok ⟨log, .matched []⟩) ↔
        ∃ cs, t = Text.ofChars cs ∧ SameUpToCase (Directive.unescaped d) cs) ∧
    (∀ cs, ∃ p, Pattern.ofDirective (Text.ofChars (Directive.doubled cs)) [] = .ok p ∧
      ∀ options, p.Matches options (Text.ofChars cs) ↔
        ∀ i, cs[i]? = some marker → i + 1 = cs.length) := by
  constructor
  · intro d hplain
    obtain ⟨literals, htokens, hflatten⟩ := Directive.exists_literals hplain
    refine ⟨_, ofDirective_nil htokens, fun options t => ?_⟩
    rw [← hflatten]
    simp only [report_plain_iff, and_true, exists_eq_left]
  · intro cs
    obtain ⟨ts, hts⟩ := Directive.exists_tokens_ofChars (Directive.doubled cs)
    refine ⟨_, ofDirective_nil hts, fun options => ?_⟩
    rw [matches_nil_iff hts, ← Directive.doubled_means_iff]
    refine and_congr_right fun _ => ?_
    constructor
    · intro h
      obtain ⟨cs', htext, hcase⟩ := h
      obtain rfl := Text.ofChars_injective htext
      exact hcase
    · intro h
      exact ⟨cs, rfl, h⟩

end Pattern

end Unformat
