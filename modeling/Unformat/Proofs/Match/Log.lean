/-
What is told of a match, and that it accounts for the outcome
(`Pattern.log_accounts`).

- Where values come out, one message for each placeholder without a value
  tells that it is dropped, in the order of the placeholders, and nothing
  else is told.
- Where none come out, the last message names the cause. Others stand in
  front of it only where the lenient policy has dropped values before it
  met a kind that does not suit its type.
- A handler tells the same, and after that, if the text matches, that it
  is about to dispatch.

That the last message comes before the callback runs is not seen in the
events alone, which are told apart from what the callback does. What a
handler does is therefore taken as a list of deeds in their order, where
a callback that fails ends the list early (`Callback.perform`). One list
alone comes to what the handler does with every callback, for a failing
one shows what is told before it (`eq_of_perform_eq`).
-/
import Unformat.Proofs.Match.Values
import Unformat.Proofs.Session.Calls

namespace Unformat

-- ============================================== statement vocabulary

/-- A message tells that the value of a placeholder is dropped. -/
def Event.TellsDropped (index : Nat) (e : Event) : Prop :=
  ∃ rest, e.message = s!"dropping value: placeholder {index}: " ++ rest

/-- A message tells that a text does not match, with reason and detail. -/
def Event.TellsMismatch (t directive : Text) (cause : Mismatch) (e : Event) : Prop :=
  e.message =
    s!"no match for {t.quoted} against {directive.quoted}: {cause.reason.name} ({cause.detail})"

/-- A message tells that values are about to be handed over. -/
def Event.TellsDispatching (t directive : Text) (e : Event) : Prop :=
  e.message = s!"dispatching {t.quoted} to {directive.quoted}"

/-- The placeholders, by their numbers, whose pieces yield no value. -/
def Pattern.missing (p : Pattern) (options : Settings) (pieces : List (List Char)) : List Nat :=
  (List.range p.kinds.length).filter fun i => (p.value? options pieces i).isNone

/-- What a handler does: it tells an event, or hands values to its
callback. -/
inductive Deed where
  | tell (event : Event)
  | call (values : List Value)

/-- The values that are handed over, if any are. -/
def Deed.values? : Deed → Option (List Value)
  | .tell _ => none
  | .call values => some values

/-- Does one thing after the other: what is told, the recorders
afterwards, and a failure. A callback that fails ends it. -/
def Callback.perform (callback : Callback) :
    List Deed → Recorders → List Event × Recorders × Option StepFault
  | [], rs => ([], rs, none)
  | .tell event :: deeds, rs =>
      let (log, rs, fault) := callback.perform deeds rs
      (event :: log, rs, fault)
  | .call values :: deeds, rs =>
      match callback.call values rs with
      | (rs, some fault) => ([], rs, some fault)
      | (rs, none) => callback.perform deeds rs

-- ======================================================= dropped values

section Dropped

variable {options : Settings} {entries : List Entry} {index : Nat} {log : List Event}

/-- The message of a dropped value names its placeholder. -/
theorem tellsDropped_cause (options : Settings) (index : Nat) (e : Entry) :
    (Event.dropped (e.cause options index)).TellsDropped index := by
  obtain ⟨rest, hdetail⟩ := e.names_cause options index
  have hliteral : "dropping value: " ++ "placeholder " = "dropping value: placeholder " := by
    decide
  refine ⟨rest, ?_⟩
  show "dropping value: " ++ (e.cause options index).detail = _
  rw [hdetail]
  show "dropping value: " ++ ("placeholder " ++ toString index ++ ": " ++ rest) =
    "dropping value: placeholder " ++ toString index ++ ": " ++ rest
  rw [← hliteral]
  simp only [String.append_assoc]

/-- The message of a rejection tells reason and detail. -/
theorem tellsMismatch_rejected (t directive : Text) (cause : Mismatch) :
    (Event.rejected t directive cause).TellsMismatch t directive cause := by
  have hliteral : " " ++ "(" = " (" := by decide
  show "no match for " ++ t.quoted ++ " against " ++ directive.quoted ++ ": " ++
      cause.reason.name ++ " " ++ ("(" ++ cause.detail ++ ")") =
    "no match for " ++ t.quoted ++ " against " ++ directive.quoted ++ ": " ++
      cause.reason.name ++ " (" ++ cause.detail ++ ")"
  rw [← hliteral]
  simp only [String.append_assoc]

/-- One message for each entry without a value, in order. -/
theorem forall₂_drops (options : Settings) (index : Nat) (entries : List Entry) :
    List.Forall₂ (fun i e => e.TellsDropped (index + i))
      ((List.range entries.length).filter fun i =>
        (entries[i]?.bind (Entry.value? options)).isNone)
      (drops options index entries) := by
  induction entries generalizing index with
  | nil => exact .nil
  | cons e entries ih =>
      have hrest : List.Forall₂ (fun i e => e.TellsDropped (index + i))
          (((List.range entries.length).map Nat.succ).filter fun i =>
            ((e :: entries)[i]?.bind (Entry.value? options)).isNone)
          (drops options (index + 1) entries) := by
        rw [List.filter_map, List.forall₂_map_left_iff]
        refine List.Forall₂.imp (fun i event htells => ?_) (ih (index + 1))
        rwa [Nat.add_right_comm] at htells
      rw [List.length_cons, List.range_succ_eq_map, drops]
      cases hvalue : e.value? options with
      | some v =>
          rw [List.filter_cons_of_neg (by simp [hvalue]), if_pos (by rfl)]
          exact hrest
      | none =>
          rw [List.filter_cons_of_pos (by simp [hvalue]), if_neg (by simp)]
          exact .cons (tellsDropped_cause options index e) hrest

/-- Where every entry has a value, nothing is told. -/
theorem drops_eq_nil (index : Nat) (h : ∀ e ∈ entries, (e.value? options).isSome) :
    drops options index entries = [] := by
  induction entries generalizing index with
  | nil => rfl
  | cons e entries ih =>
      obtain ⟨hsome, hrest⟩ := List.forall_mem_cons.mp h
      rw [drops, if_pos hsome]
      exact ih (index + 1) hrest

/-- Where values come out, the entries without one are told of and nothing
else, under either policy. -/
theorem log_of_matched {values : List Value}
    (h : readPieces options index entries = .ok ⟨log, .matched values⟩) :
    log = drops options index entries := by
  have hsuits := suits_of_matched h
  cases hpolicy : options.policy with
  | strict =>
      have hvalues := values_of_strict_matched hpolicy h
      rw [readPieces_strict index hsuits hvalues] at h
      cases Except.ok.inj h
      rw [drops_eq_nil index hvalues]
  | lenient =>
      rw [readPieces_lenient hpolicy index hsuits] at h
      cases Except.ok.inj h
      rfl

/-- The strict policy tells nothing on the way. -/
theorem log_of_strict (hpolicy : options.policy = .strict) {outcome : Outcome}
    (h : readPieces options index entries = .ok ⟨log, outcome⟩) : log = [] := by
  induction entries generalizing index log outcome with
  | nil =>
      cases Except.ok.inj h
      rfl
  | cons e entries ih =>
      cases hsuits : e.2.1.suits e.2.2 with
      | false =>
          rw [readPieces_of_misfit hsuits] at h
          cases Except.ok.inj h
          rfl
      | true =>
          have hread := Entry.readPiece_eq options index e
          cases hvalue : e.value? options with
          | some v =>
              rw [hvalue] at hread
              rw [readPieces_of_value hsuits hread] at h
              obtain ⟨⟨log', outcome'⟩, hrest, hcons⟩ := map_eq_ok_iff.mp h
              have hlog : (Report.consValue v ⟨log', outcome'⟩).log = log' := by
                cases outcome' <;> rfl
              rw [hcons] at hlog
              exact hlog.trans (ih hrest)
          | none =>
              rw [hvalue] at hread
              rw [readPieces_of_strict hsuits hread hpolicy] at h
              cases Except.ok.inj h
              rfl

/-- Where none come out, values have been dropped by then only under the
lenient policy and in front of a kind that does not suit its type. -/
theorem log_of_mismatch {cause : Mismatch}
    (h : readPieces options index entries = .ok ⟨log, .mismatch cause⟩) :
    (∃ dropped : List Nat, dropped.Pairwise (· < ·) ∧
      List.Forall₂ (fun i e => e.TellsDropped (index + i)) dropped log) ∧
    (log ≠ [] → options.policy = .lenient ∧ cause.reason = .shape) := by
  cases hpolicy : options.policy with
  | strict =>
      obtain rfl := log_of_strict hpolicy h
      exact ⟨⟨[], .nil, .nil⟩, fun hne => absurd rfl hne⟩
  | lenient =>
      rcases suits_or_first_misfit entries with hsuits | ⟨front, e, back, rfl, hmisfit, hfront⟩
      · rw [readPieces_lenient hpolicy index hsuits] at h
        cases Except.ok.inj h
      · rw [readPieces_lenient_append hpolicy index hfront hmisfit] at h
        cases Except.ok.inj h
        refine ⟨⟨_, ?_, forall₂_drops options index front⟩, fun _ => ⟨rfl, rfl⟩⟩
        exact List.pairwise_lt_range.filter _

end Dropped

-- ================================================================ deeds

namespace Callback

/-- What is told first is told whatever follows. -/
theorem perform_tells (callback : Callback) (log : List Event) (deeds : List Deed)
    (rs : Recorders) :
    callback.perform (log.map .tell ++ deeds) rs =
      (log ++ (callback.perform deeds rs).1, (callback.perform deeds rs).2) := by
  induction log with
  | nil => rfl
  | cons event log ih =>
      rw [List.map_cons, List.cons_append, perform, ih]
      rfl

/-- A recorder receives the values of all calls. -/
theorem calls_perform (name : String) (deeds : List Deed) (rs : Recorders) :
    (((record name).perform deeds rs).2.1.get name).calls =
      (rs.get name).calls ++ deeds.filterMap Deed.values? := by
  induction deeds generalizing rs with
  | nil => simp [perform]
  | cons deed deeds ih =>
      cases deed with
      | tell event => exact ih rs
      | call values =>
          have hcall := (record name).calls_call values rs name
          rw [handed, if_pos rfl] at hcall
          show (((record name).perform deeds ((record name).call values rs).1).2.1.get name).calls
            = _
          rw [ih, hcall, List.append_assoc]
          rfl

end Callback

/-- A list of deeds that tells nothing and calls nothing is empty. -/
theorem eq_nil_of_perform {deeds : List Deed} {rs : Recorders}
    (htold : (Callback.ignore.perform deeds rs).1 = [])
    (hcalls : deeds.filterMap Deed.values? = []) : deeds = [] := by
  cases deeds with
  | nil => rfl
  | cons deed deeds =>
      cases deed with
      | tell event => cases htold
      | call values => cases hcalls

/-- The deeds of a handler that tells and then makes one call at most are
known by what comes of them with every callback. -/
theorem eq_of_perform_eq {log : List Event} {call? : Option (List Value)} {deeds : List Deed}
    (h : ∀ (callback : Callback) (rs : Recorders), callback.perform deeds rs =
      callback.perform (log.map .tell ++ (call?.map Deed.call).toList) rs) :
    deeds = log.map .tell ++ (call?.map Deed.call).toList := by
  -- a failing callback shows what is told before it, a recorder what is called
  induction log generalizing deeds with
  | cons event log ih =>
      cases deeds with
      | nil => cases congrArg Prod.fst (h .ignore [])
      | cons deed deeds =>
          cases deed with
          | call values => cases congrArg Prod.fst (h (.fail "") [])
          | tell event' =>
              have hhead := congrArg Prod.fst (h .ignore [])
              obtain rfl : event' = event := (List.cons.inj hhead).1
              refine congrArg (Deed.tell event' :: ·) (ih fun callback rs => ?_)
              have htail := h callback rs
              have hlog := (List.cons.inj (congrArg Prod.fst htail)).2
              exact Prod.ext hlog (congrArg (fun r => r.2) htail)
  | nil =>
      cases deeds with
      | nil =>
          cases call? with
          | none => rfl
          | some values => cases congrArg (fun r => r.2.2) (h (.fail "") [])
      | cons deed deeds =>
          cases deed with
          | tell event =>
              cases call? with
              | none => cases congrArg Prod.fst (h .ignore [])
              | some values => cases congrArg Prod.fst (h .ignore [])
          | call values =>
              cases call? with
              | none => cases congrArg (fun r => r.2.2) (h (.fail "") [])
              | some values' =>
                  have htold : (Callback.ignore.perform deeds []).1 = [] :=
                    congrArg Prod.fst (h .ignore [])
                  have hcalls := congrArg (fun r => (r.2.1.get "").calls) (h (.record "") [])
                  simp only [Callback.calls_perform] at hcalls
                  obtain ⟨rfl, hnone⟩ : values = values' ∧ deeds.filterMap Deed.values? = [] :=
                    List.cons.inj hcalls
                  rw [eq_nil_of_perform htold hnone]
                  rfl

-- ============================================================= handlers

namespace Pattern

variable {p : Pattern} {options : Settings} {t : Text}

/-- What a handler does that is offered a text: it tells what is told of
the match, and if there are values, that it dispatches them, and only
then hands them over. -/
def deeds (p : Pattern) (t : Text) (r : Report) : List Deed :=
  r.log.map .tell ++
    match r.outcome with
    | .matched values => [.tell (.dispatching t p.directive), .call values]
    | .mismatch _ => []

theorem dispatch_eq_perform {r : Report} (h : p.report options t = .ok r) (callback : Callback)
    (rs : Recorders) :
    Handler.dispatch ⟨p, options, callback⟩ t rs = callback.perform (p.deeds t r) rs := by
  have hreport : Handler.report ⟨p, options, callback⟩ t = .ok r := h
  obtain ⟨log, outcome⟩ := r
  unfold Handler.dispatch Handler.offer deeds
  rw [hreport, Callback.perform_tells]
  cases outcome with
  | mismatch cause => simp [Except.map, Callback.perform]
  | matched values =>
      simp only [Except.map, Callback.perform]
      rcases callback.call values rs with ⟨rs', fault⟩
      cases fault <;> rfl

/-- No other list of deeds comes to the same. -/
theorem dispatch_eq_perform_iff {r : Report} (h : p.report options t = .ok r) {ds : List Deed} :
    (∀ callback rs, Handler.dispatch ⟨p, options, callback⟩ t rs = callback.perform ds rs) ↔
      ds = p.deeds t r := by
  constructor
  · intro hds
    have hsame : ∀ (callback : Callback) (rs : Recorders),
        callback.perform ds rs = callback.perform (p.deeds t r) rs := fun callback rs =>
      (hds callback rs).symm.trans (dispatch_eq_perform h callback rs)
    obtain ⟨log, outcome⟩ := r
    cases outcome with
    | mismatch cause =>
        have hdeeds : p.deeds t ⟨log, .mismatch cause⟩ =
            log.map .tell ++ (Option.map Deed.call none).toList := rfl
        rw [hdeeds] at hsame ⊢
        exact eq_of_perform_eq hsame
    | matched values =>
        -- the last message joins those of the match
        have hdeeds : p.deeds t ⟨log, .matched values⟩ =
            (log ++ [Event.dispatching t p.directive]).map .tell ++
              ((some values).map Deed.call).toList := by
          simp [deeds]
        rw [hdeeds] at hsame ⊢
        exact eq_of_perform_eq hsame
  · rintro rfl callback rs
    exact dispatch_eq_perform h callback rs

-- ============================================================== matches

/-- As many values are missing as there are fewer of them than
placeholders. -/
theorem length_add_length_missing {pieces : List (List Char)}
    (hpieces : t.pieces p.tokens = .ok pieces) (hshape : p.kinds.length = p.shape.length) :
    ((p.entries pieces).filterMap (Entry.value? options)).length +
      (p.missing options pieces).length = p.kinds.length := by
  rw [filterMap_entries, length_entries hpieces hshape, List.length_filterMap_eq_countP, missing,
    ← List.countP_eq_length_filter]
  have hsplit := List.length_eq_countP_add_countP
    (fun i => (p.value? options pieces i).isSome) (l := List.range p.kinds.length)
  simpa only [List.length_range, Bool.not_eq_true, Bool.decide_eq_false, Option.not_isSome]
    using hsplit.symm

/-- Where values come out, the placeholders without one are told of. -/
theorem log_of_values {r : Report} (hreport : p.report options t = .ok r) {values : List Value}
    (houtcome : r.outcome = .matched values) :
    ∃ pieces, t.pieces p.tokens = .ok pieces ∧
      values = (List.range p.kinds.length).filterMap (p.value? options pieces) ∧
      values.length + (p.missing options pieces).length = p.kinds.length ∧
      List.Forall₂ Event.TellsDropped (p.missing options pieces) r.log := by
  obtain ⟨log, outcome⟩ := r
  obtain rfl : outcome = .matched values := houtcome
  obtain ⟨pieces, hpieces, hshape, hread⟩ := report_eq_matched_iff.mp hreport
  have hvalues := values_eq_of_matched hread
  have hlength := length_entries hpieces hshape
  refine ⟨pieces, hpieces, ?_, ?_, ?_⟩
  · rw [← hlength, ← filterMap_entries]
    exact hvalues
  · rw [hvalues]
    exact length_add_length_missing hpieces hshape
  · have hdrops := forall₂_drops options 0 (p.entries pieces)
    rw [hlength] at hdrops
    rw [log_of_matched hread]
    simp only [Nat.zero_add] at hdrops
    exact hdrops

/-- Where none come out, the cause is told last. -/
theorem log_of_cause {r : Report} (hreport : p.report options t = .ok r) {cause : Mismatch}
    (houtcome : r.outcome = .mismatch cause) :
    ∃ before last, r.log = before ++ [last] ∧ last.TellsMismatch t p.directive cause ∧
      (∃ dropped : List Nat, dropped.Pairwise (· < ·) ∧
        List.Forall₂ Event.TellsDropped dropped before) ∧
      (before ≠ [] → options.policy = .lenient ∧ cause.reason = .shape) := by
  have htells := tellsMismatch_rejected t p.directive cause
  rcases report_cases p t with ⟨cause', hrejected⟩ | ⟨pieces, -, -, hread⟩
  · rw [hrejected options] at hreport
    cases Except.ok.inj hreport
    obtain rfl := Outcome.mismatch.inj houtcome
    exact ⟨[], _, rfl, htells, ⟨[], .nil, .nil⟩, fun hne => absurd rfl hne⟩
  · rw [hread options] at hreport
    obtain ⟨⟨log, outcome⟩, hpieces, hclosed⟩ := map_eq_ok_iff.mp hreport
    have hsame : outcome = .mismatch cause := by
      rw [← houtcome, ← hclosed, outcome_closed]
    subst hsame
    obtain ⟨⟨dropped, hincreasing, hdropped⟩, hearlier⟩ := log_of_mismatch hpieces
    refine ⟨log, _, ?_, htells, ⟨dropped, hincreasing, ?_⟩, hearlier⟩
    · rw [← hclosed]
      rfl
    · simpa only [Nat.zero_add] using hdropped

/-- The messages of a match account for its outcome. If values come out,
they are those of the placeholders whose pieces yield one, each other
placeholder is told of once, in order, and nothing else is told. If none
come out, the last message tells why, and others stand in front of it
only where the lenient policy dropped values before it met a kind that
does not suit its type. A handler with any callback that is offered the
text tells the same, and if the text matches, it tells once that it
dispatches and then calls: no other order of telling and calling comes to
what it does with every callback. -/
theorem log_accounts (p : Pattern) (options : Settings) (t : Text) :
    ∃ r, p.report options t = .ok r ∧
      (∀ values, r.outcome = .matched values → ∃ pieces, t.pieces p.tokens = .ok pieces ∧
        values = (List.range p.kinds.length).filterMap (p.value? options pieces) ∧
        values.length + (p.missing options pieces).length = p.kinds.length ∧
        List.Forall₂ Event.TellsDropped (p.missing options pieces) r.log) ∧
      (∀ cause, r.outcome = .mismatch cause → ∃ before last, r.log = before ++ [last] ∧
        last.TellsMismatch t p.directive cause ∧
        (∃ dropped : List Nat, dropped.Pairwise (· < ·) ∧
          List.Forall₂ Event.TellsDropped dropped before) ∧
        (before ≠ [] → options.policy = .lenient ∧ cause.reason = .shape)) ∧
      ∃ announced, Event.TellsDispatching t p.directive announced ∧
        ∀ deeds, (∀ callback rs,
          Handler.dispatch ⟨p, options, callback⟩ t rs = callback.perform deeds rs) ↔
            deeds = r.log.map .tell ++
              match r.outcome with
              | .matched values => [.tell announced, .call values]
              | .mismatch _ => [] := by
  obtain ⟨r, hreport⟩ := exists_report_eq_ok p options t
  refine ⟨r, hreport, fun values => log_of_values hreport, fun cause => log_of_cause hreport,
    .dispatching t p.directive, rfl, fun deeds => ?_⟩
  exact dispatch_eq_perform_iff hreport

/-- The first value is dropped, and then a kind does not suit its type. -/
example :
    let p : Pattern := ⟨Text.ofChars ['d'], [.placeholder .int, .literal ['/'], .placeholder .bool],
      [.int64, .float]⟩
    (p.report ⟨.lenient, .legacy, .wrap⟩ (Text.ofChars "x/no".toList)).toOption.map
      (fun r => r.log.map Event.message) =
    some ["dropping value: placeholder 0: 'x' is not a valid int",
      "no match for 'x/no' against 'd': shape (placeholder 1 decodes bool, shape expects float)"]
    := by
  decide +kernel

end Pattern

end Unformat
