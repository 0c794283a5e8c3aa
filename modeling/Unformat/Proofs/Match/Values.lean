/-
Which values come out of the pieces of a cut text, and what the two
policies make of them. When every kind suits its type, both policies are
told by the values of the entries and by the causes of those that are
missing:

- the lenient one matches with the values that there are, and tells of
  the other entries in order (`readPieces_lenient`);
- the strict one matches if every entry yields a value
  (`readPieces_strict`), and otherwise names the first that does not
  (`readPieces_strict_append`).

When some kind does not suit its type, no policy matches
(`suits_of_matched`), and all lenient runs end for the same cause
(`suits_or_mismatch_of_lenient`). So two lenient runs with other options
differ by their values alone, and where the second has only fewer of
them, what it leaves out is told by their positions
(`Pattern.exists_values_of_removed`).
-/
import Unformat.Proofs.Match.Reading

namespace Unformat

/-- A cause names a placeholder: its text starts with it. -/
def Mismatch.Names (cause : Mismatch) (index : Nat) : Prop :=
  ∃ rest, cause.detail = s!"placeholder {index}: " ++ rest

-- ===================================================== missing values

namespace Entry

/-- There are two ways for a value to be missing. -/
theorem cause_eq_or (options : Settings) (index : Nat) (piece : List Char) (kind : Kind)
    (target : ElementType) :
    cause options index (piece, kind, target) = .unfit index piece target ∨
      cause options index (piece, kind, target) = .undecodable index piece kind :=
  ite_eq_or_eq _ _ _

/-- A missing value is a matter of reading or of narrowing. -/
theorem reason_cause (options : Settings) (index : Nat) (e : Entry) :
    (e.cause options index).reason = .decode ∨ (e.cause options index).reason = .narrowing := by
  obtain ⟨piece, kind, target⟩ := e
  rcases cause_eq_or options index piece kind target with hcause | hcause
  · rw [hcause]
    cases target with
    | int32 => exact .inr rfl
    | uint32 => exact .inr rfl
    | _ => exact .inl rfl
  · rw [hcause]
    exact .inl rfl

/-- A missing value is told of by the number of its placeholder. -/
theorem names_cause (options : Settings) (index : Nat) (e : Entry) :
    (e.cause options index).Names index := by
  obtain ⟨piece, kind, target⟩ := e
  rcases cause_eq_or options index piece kind target with hcause | hcause
  · rw [hcause]
    exact ⟨_, String.append_assoc.trans String.append_assoc⟩
  · rw [hcause]
    exact ⟨_, String.append_assoc.trans String.append_assoc⟩

end Entry

-- ============================================================ policies

/-- What is told of the entries without a value, in order. -/
def drops (options : Settings) : (index : Nat) → List Entry → List Event
  | _, [] => []
  | index, e :: entries =>
      if (e.value? options).isSome then drops options (index + 1) entries
      else .dropped (e.cause options index) :: drops options (index + 1) entries

section Policies

variable {options : Settings} {entries : List Entry}

/-- The lenient policy keeps the values that there are. -/
theorem readPieces_lenient (hpolicy : options.policy = .lenient) (index : Nat)
    (hsuits : ∀ e ∈ entries, e.2.1.suits e.2.2 = true) :
    readPieces options index entries =
      .ok ⟨drops options index entries, .matched (entries.filterMap (Entry.value? options))⟩ := by
  induction entries generalizing index with
  | nil => rfl
  | cons e entries ih =>
      obtain ⟨hhead, htail⟩ := List.forall_mem_cons.mp hsuits
      have hread := Entry.readPiece_eq options index e
      cases hv : e.value? options with
      | some v =>
          rw [hv] at hread
          rw [readPieces_of_value hhead hread, ih (index + 1) htail, drops, hv,
            List.filterMap_cons_some hv]
          rfl
      | none =>
          rw [hv] at hread
          rw [readPieces_of_lenient hhead hread hpolicy, ih (index + 1) htail, drops, hv,
            List.filterMap_cons_none hv]
          rfl

/-- The lenient policy ends at the first kind that does not suit its
type, whatever values are missing in front of it. -/
theorem readPieces_lenient_append (hpolicy : options.policy = .lenient) (index : Nat)
    {front back : List Entry} {e : Entry} (hsuits : ∀ e ∈ front, e.2.1.suits e.2.2 = true)
    (hmisfit : e.2.1.suits e.2.2 = false) :
    readPieces options index (front ++ e :: back) =
      .ok ⟨drops options index front, .mismatch (.misfit (index + front.length) e.2.1 e.2.2)⟩ := by
  induction front generalizing index with
  | nil => exact readPieces_of_misfit hmisfit
  | cons d front ih =>
      obtain ⟨hhead, htail⟩ := List.forall_mem_cons.mp hsuits
      have hread := Entry.readPiece_eq options index d
      rw [List.cons_append, List.length_cons, Nat.add_comm front.length, ← Nat.add_assoc, drops]
      cases hv : d.value? options with
      | some v =>
          rw [hv] at hread
          rw [readPieces_of_value hhead hread, ih (index + 1) htail]
          rfl
      | none =>
          rw [hv] at hread
          rw [readPieces_of_lenient hhead hread hpolicy, ih (index + 1) htail]
          rfl

/-- A check passes all elements of a list, or there is a first one that
it does not pass. -/
theorem all_or_first_not {α : Type} (passes : α → Bool) (l : List α) :
    (∀ a ∈ l, passes a = true) ∨
      ∃ front a back, l = front ++ a :: back ∧ passes a = false ∧
        ∀ b ∈ front, passes b = true := by
  cases hfind : l.find? fun a => !passes a with
  | none =>
      refine .inl fun a ha => ?_
      simpa using List.find?_eq_none.mp hfind a ha
  | some a =>
      obtain ⟨hnot, front, back, hsplit, hfront⟩ := List.find?_eq_some_iff_append.mp hfind
      refine .inr ⟨front, a, back, hsplit, by simpa using hnot, fun b hb => ?_⟩
      simpa using hfront b hb

/-- Either every kind suits its type, or there is a first one that does
not. -/
theorem suits_or_first_misfit (entries : List Entry) :
    (∀ e ∈ entries, e.2.1.suits e.2.2 = true) ∨
      ∃ front e back, entries = front ++ e :: back ∧ e.2.1.suits e.2.2 = false ∧
        ∀ d ∈ front, d.2.1.suits d.2.2 = true :=
  all_or_first_not (fun e => e.2.1.suits e.2.2) entries

/-- Unless every kind suits its type, all lenient runs end for the same
cause, whatever they have left out by then. -/
theorem suits_or_mismatch_of_lenient (entries : List Entry) :
    (∀ e ∈ entries, e.2.1.suits e.2.2 = true) ∨
      ∃ cause, ∀ options : Settings, options.policy = .lenient → ∃ log,
        readPieces options 0 entries = .ok ⟨log, .mismatch cause⟩ := by
  rcases suits_or_first_misfit entries with hsuits | ⟨front, e, back, rfl, hmisfit, hfront⟩
  · exact .inl hsuits
  · exact .inr ⟨_, fun _ hpolicy => ⟨_, readPieces_lenient_append hpolicy 0 hfront hmisfit⟩⟩

/-- Reading looks at the options for the policy, the values and the causes
alone. -/
theorem readPieces_congr {options options' : Settings} (hpolicy : options.policy = options'.policy)
    (hentries : ∀ e ∈ entries, e.value? options = e.value? options' ∧
      ∀ index, e.cause options index = e.cause options' index) (index : Nat) :
    readPieces options index entries = readPieces options' index entries := by
  induction entries generalizing index with
  | nil => rfl
  | cons e entries ih =>
      obtain ⟨⟨hvalue, hcause⟩, hrest⟩ := List.forall_mem_cons.mp hentries
      have hread : readPiece options index e.1 e.2.1 e.2.2
          = readPiece options' index e.1 e.2.1 e.2.2 := by
        rw [Entry.readPiece_eq, Entry.readPiece_eq, hvalue, hcause]
      obtain ⟨piece, kind, target⟩ := e
      simp only [readPieces, hread, hpolicy, ih hrest]

/-- Under the lenient policy values come out as soon as every kind suits
its type. -/
theorem exists_matched_of_suits (hpolicy : options.policy = .lenient) {index : Nat}
    (hsuits : ∀ e ∈ entries, e.2.1.suits e.2.2 = true) :
    ∃ log values, readPieces options index entries = .ok ⟨log, .matched values⟩ :=
  ⟨_, _, readPieces_lenient hpolicy index hsuits⟩

/-- The strict policy matches if every entry has a value. -/
theorem readPieces_strict (index : Nat) (hsuits : ∀ e ∈ entries, e.2.1.suits e.2.2 = true)
    (hvalues : ∀ e ∈ entries, (e.value? options).isSome) :
    readPieces options index entries =
      .ok ⟨[], .matched (entries.filterMap (Entry.value? options))⟩ := by
  induction entries generalizing index with
  | nil => rfl
  | cons e entries ih =>
      obtain ⟨hhead, htail⟩ := List.forall_mem_cons.mp hsuits
      obtain ⟨hsome, hrest⟩ := List.forall_mem_cons.mp hvalues
      obtain ⟨v, hv⟩ := Option.isSome_iff_exists.mp hsome
      have hread := Entry.readPiece_eq options index e
      rw [hv] at hread
      rw [readPieces_of_value hhead hread, ih (index + 1) htail hrest, List.filterMap_cons_some hv]
      rfl

/-- The strict policy ends at the first entry without a value. -/
theorem readPieces_strict_append (hpolicy : options.policy = .strict) (index : Nat)
    {front back : List Entry} {e : Entry}
    (hsuits : ∀ e ∈ front, e.2.1.suits e.2.2 = true)
    (hvalues : ∀ e ∈ front, (e.value? options).isSome)
    (hsuit : e.2.1.suits e.2.2 = true) (hnone : e.value? options = none) :
    readPieces options index (front ++ e :: back) =
      .ok ⟨[], .mismatch (e.cause options (index + front.length))⟩ := by
  induction front generalizing index with
  | nil =>
      have hread := Entry.readPiece_eq options index e
      rw [hnone] at hread
      exact readPieces_of_strict hsuit hread hpolicy
  | cons d front ih =>
      obtain ⟨hhead, htail⟩ := List.forall_mem_cons.mp hsuits
      obtain ⟨hsome, hrest⟩ := List.forall_mem_cons.mp hvalues
      obtain ⟨v, hv⟩ := Option.isSome_iff_exists.mp hsome
      have hread := Entry.readPiece_eq options index d
      rw [hv] at hread
      rw [List.cons_append, readPieces_of_value hhead hread, ih (index + 1) htail hrest,
        List.length_cons, Nat.add_right_comm, Nat.add_assoc]
      rfl

/-- Either every entry has a value, or there is a first one that has
none. -/
theorem values_or_first_none (options : Settings) (entries : List Entry) :
    (∀ e ∈ entries, (e.value? options).isSome) ∨
      ∃ front e back, entries = front ++ e :: back ∧ e.value? options = none ∧
        ∀ d ∈ front, (d.value? options).isSome := by
  simpa only [Option.isSome_eq_false_iff, Option.isNone_iff_eq_none] using
    all_or_first_not (fun e => (e.value? options).isSome) entries

/-- Under the strict policy values come out only if every entry has
one. -/
theorem values_of_strict_matched (hpolicy : options.policy = .strict) {index : Nat}
    {log : List Event} {values : List Value}
    (h : readPieces options index entries = .ok ⟨log, .matched values⟩) :
    ∀ e ∈ entries, (e.value? options).isSome := by
  have hsuits := suits_of_matched h
  rcases values_or_first_none options entries with hall | ⟨front, e, back, rfl, hnone, hfront⟩
  · exact hall
  · obtain ⟨hsuits, hsuit, -⟩ := by
      simpa only [List.forall_mem_append, List.forall_mem_cons] using hsuits
    rw [readPieces_strict_append hpolicy index hsuits hfront hsuit hnone] at h
    cases Except.ok.inj h

/-- Under either policy the values that come out are those that there
are. -/
theorem values_eq_of_matched {index : Nat} {log : List Event} {values : List Value}
    (h : readPieces options index entries = .ok ⟨log, .matched values⟩) :
    values = entries.filterMap (Entry.value? options) := by
  have hsuits := suits_of_matched h
  cases hpolicy : options.policy with
  | strict =>
      rw [readPieces_strict index hsuits (values_of_strict_matched hpolicy h)] at h
      cases Except.ok.inj h
      rfl
  | lenient =>
      rw [readPieces_lenient hpolicy index hsuits] at h
      cases Except.ok.inj h
      rfl

end Policies

-- =========================================================== positions

/-- The results of a partial function stand beside the arguments that
have one. -/
theorem forall₂_filter_filterMap {α β : Type} (f : α → Option β) (l : List α) :
    List.Forall₂ (fun a b => f a = some b) (l.filter fun a => (f a).isSome) (l.filterMap f) := by
  induction l with
  | nil => exact .nil
  | cons a l ih =>
      cases hf : f a with
      | none =>
          rw [List.filter_cons_of_neg (by simp [hf]), List.filterMap_cons_none hf]
          exact ih
      | some b =>
          rw [List.filter_cons_of_pos (by simp [hf]), List.filterMap_cons_some hf]
          exact .cons hf ih

/-- Arguments without a result are dropped in any case, so what is left of
the others when some are removed can be told by their positions. -/
theorem filterMap_removed {α β : Type} (f : α → Option β) (removed : α → Bool) (l : List α) :
    (l.filterMap fun a => if removed a then none else f a) =
      (((l.filter fun a => (f a).isSome).zip (l.filterMap f)).filter
        fun e => !removed e.1).map Prod.snd := by
  induction l with
  | nil => rfl
  | cons a l ih =>
      cases hf : f a with
      | none =>
          rw [List.filterMap_cons_none (by rw [hf, ite_self]),
            List.filter_cons_of_neg (by simp [hf]), List.filterMap_cons_none hf]
          exact ih
      | some b =>
          rw [List.filter_cons_of_pos (by simp [hf]), List.filterMap_cons_some hf,
            List.zip_cons_cons]
          cases hremoved : removed a with
          | true =>
              rw [List.filterMap_cons_none (by rw [hremoved]; rfl),
                List.filter_cons_of_neg (by simp [hremoved])]
              exact ih
          | false =>
              rw [List.filterMap_cons_some (by rw [hremoved]; exact hf),
                List.filter_cons_of_pos (by simp [hremoved]), List.map_cons, ih]

-- ============================================================ patterns

namespace Pattern

/-- The value of the piece at an index, if it yields one. -/
def value? (p : Pattern) (options : Settings) (pieces : List (List Char)) (i : Nat) :
    Option Value :=
  (p.entries pieces)[i]?.bind (Entry.value? options)

variable {p : Pattern} {t : Text} {pieces : List (List Char)}

theorem length_entries (hpieces : t.pieces p.tokens = .ok pieces)
    (hshape : p.kinds.length = p.shape.length) : (p.entries pieces).length = p.kinds.length := by
  have hlength : pieces.length = p.kinds.length := Text.length_of_pieces_eq_ok hpieces
  rw [entries, List.length_zip, List.length_zip, hlength, ← hshape, Nat.min_self, Nat.min_self]

/-- There is a piece for each placeholder, so no kind is left out. -/
theorem map_snd_entries (hpieces : t.pieces p.tokens = .ok pieces) :
    (p.entries pieces).map Prod.snd = p.kinds.zip p.shape := by
  have hlength : pieces.length = p.kinds.length := Text.length_of_pieces_eq_ok hpieces
  apply List.map_snd_zip
  rw [List.length_zip, hlength]
  exact Nat.min_le_left _ _

/-- The types of the entries are those of the shape. -/
theorem map_target_entries (hpieces : t.pieces p.tokens = .ok pieces)
    (hshape : p.kinds.length = p.shape.length) :
    (p.entries pieces).map (fun e => e.2.2) = p.shape :=
  calc (p.entries pieces).map (fun e => e.2.2)
      = ((p.entries pieces).map Prod.snd).map Prod.snd := by rw [List.map_map]; rfl
    _ = (p.kinds.zip p.shape).map Prod.snd := by rw [map_snd_entries hpieces]
    _ = p.shape := List.map_snd_zip (Nat.le_of_eq hshape.symm)

/-- The kinds of the entries are those of the placeholders. -/
theorem map_kind_entries (hpieces : t.pieces p.tokens = .ok pieces)
    (hshape : p.kinds.length = p.shape.length) :
    (p.entries pieces).map (fun e => e.2.1) = p.kinds :=
  calc (p.entries pieces).map (fun e => e.2.1)
      = ((p.entries pieces).map Prod.snd).map Prod.fst := by rw [List.map_map]; rfl
    _ = (p.kinds.zip p.shape).map Prod.fst := by rw [map_snd_entries hpieces]
    _ = p.kinds := List.map_fst_zip (Nat.le_of_eq hshape)

/-- In a pattern that passes its check, every kind suits its type. -/
theorem suits_of_check (hcheck : p.check = .ok ()) (pieces : List (List Char)) :
    ∀ e ∈ p.entries pieces, e.2.1.suits e.2.2 = true := fun e he =>
  (check_eq_ok_iff.mp hcheck).2 e.2 (List.of_mem_zip he).2

/-- The values of the entries are those at the indices, in order. -/
theorem filterMap_entries (p : Pattern) (options : Settings) (pieces : List (List Char)) :
    (p.entries pieces).filterMap (Entry.value? options) =
      (List.range (p.entries pieces).length).filterMap (p.value? options pieces) := by
  unfold value?
  generalize p.entries pieces = entries
  induction entries with
  | nil => rfl
  | cons e entries ih =>
      rw [List.length_cons, List.range_succ_eq_map, List.filterMap_cons, List.filterMap_cons,
        List.filterMap_map, ih]
      rfl

/-- Two lenient runs on one text in a pattern in which every kind suits
its type: if the values are the same but for indices at which the second
has none, it matches with the values of the first without those. -/
theorem exists_values_of_removed {options options' : Settings}
    (hpolicy : options.policy = .lenient) (hpolicy' : options'.policy = .lenient)
    (hpieces : t.pieces p.tokens = .ok pieces) (hshape : p.kinds.length = p.shape.length)
    (hsuits : ∀ e ∈ p.entries pieces, e.2.1.suits e.2.2 = true) {removed : Nat → Bool}
    (hvalue : ∀ i, p.value? options' pieces i =
      if removed i then none else p.value? options pieces i) :
    ∃ positions values log log',
      positions = (List.range p.shape.length).filter (fun i =>
        (p.value? options pieces i).isSome) ∧
      List.Forall₂ (fun i v => p.value? options pieces i = some v) positions values ∧
      readPieces options 0 (p.entries pieces) = .ok ⟨log, .matched values⟩ ∧
      readPieces options' 0 (p.entries pieces) = .ok ⟨log', .matched
        (((positions.zip values).filter fun e => !removed e.1).map Prod.snd)⟩ := by
  have hlength : (p.entries pieces).length = p.shape.length :=
    (length_entries hpieces hshape).trans hshape
  have hread := readPieces_lenient hpolicy 0 hsuits
  have hread' := readPieces_lenient hpolicy' 0 hsuits
  rw [filterMap_entries, hlength] at hread hread'
  rw [funext hvalue, filterMap_removed] at hread'
  exact ⟨_, _, _, _, rfl, forall₂_filter_filterMap _ _, hread, hread'⟩

end Pattern

end Unformat
