/-
The calls that a recorder holds after a session has run, told from the
steps alone (`Session.handed_over`).

Every step contributes some calls to a recorder, which depend on the
handlers bound at that step and on nothing else that the session did
before:

- invoking a handler with this recorder contributes the values;
- trying a handler with this recorder contributes the values of the text
  if the handler matches it;
- offering a text contributes the same for each handler that is asked,
  and those are asked in order up to the first that raises.

A recorder then holds the contributions since it was last emptied, one
after the other. A step that fails contributes what it did before it
failed, so nothing has to be said of it apart.
-/
import Mathlib.Data.List.DropRight
import Unformat.Proofs.Match.Reading
import Unformat.Proofs.Session.Bound

namespace Unformat

-- ====================================================== a single handler

namespace Handler

/-- The values of a text that the handler matches. -/
def values? (h : Handler) (t : Text) : Option (List Value) :=
  match h.report t with
  | .ok ⟨_, .matched values⟩ => some values
  | _ => none

/-- What the handler tells of a text that it is offered. -/
def told (t : Text) (h : Handler) : List Event :=
  match h.offer t with
  | .ok (log, _) => log
  | .error _ => []

/-- The message with which the handler fails on a text that it matches. -/
def raised? (t : Text) (h : Handler) : Option String :=
  match h.callback, h.values? t with
  | .fail message, some _ => some message
  | _, _ => none

end Handler

/-- The calls of a recorder when a callback receives values. -/
def Callback.handed (name : String) (values : List Value) : Callback → List (List Value)
  | .record recorder => if recorder = name then [values] else []
  | _ => []

/-- The calls of a recorder when a handler is offered a text. -/
def Handler.handed (name : String) (t : Text) (h : Handler) : List (List Value) :=
  (h.values? t).toList.flatMap fun values => h.callback.handed name values

-- ================================================================ steps

/-- The handlers up to the first that raises on a text, with that one. -/
def upToRaising (t : Text) (hs : List Handler) : List Handler :=
  hs.takeWhile (fun h => (h.raised? t).isNone) ++ (hs.find? fun h => (h.raised? t).isSome).toList

/-- The handlers that a step asks to match a text and to hand over its
values. -/
def Step.asked (handlers : Keyed String Handler) : Step → List Handler
  | .offer t => upToRaising t (handlers.map Prod.snd)
  | .tryOne id _ => (Keyed.find? id handlers).toList
  | _ => []

/-- The calls of a recorder in a step, by the handlers bound at it. -/
def Step.contribution (name : String) (handlers : Keyed String Handler) (x : Step) :
    List (List Value) :=
  match x with
  | .offer t => (x.asked handlers).flatMap (Handler.handed name t)
  | .tryOne _ t => (x.asked handlers).flatMap (Handler.handed name t)
  | .invoke id values =>
      (Keyed.find? id handlers).toList.flatMap fun h => h.callback.handed name values
  | _ => []

/-- A step that empties a recorder. -/
def Step.empties (name : String) : Step → Bool
  | .reset recorder => recorder = name
  | _ => false

/-- The steps, each beside those before it. -/
def history (steps : List Step) : List (List Step × Step) :=
  steps.mapIdx fun i x => (steps.take i, x)

/-- The steps after the last that empties a recorder, each beside all
those before it. -/
def sinceEmptied (name : String) (steps : List Step) : List (List Step × Step) :=
  (history steps).rtakeWhile fun e => !e.2.empties name

-- ==================================================== what a handler does

namespace Recorders

theorem get_put (recorder name : String) (r : Recorder) (rs : Recorders) :
    get name (Keyed.put recorder r rs) = if recorder = name then r else get name rs := by
  rw [get, Keyed.find?_put]
  split <;> rfl

@[simp] theorem get_ensure (recorder name : String) (rs : Recorders) :
    get name (ensure recorder rs) = get name rs := by
  rw [ensure, get_put]
  split
  case isTrue h => rw [h]
  case isFalse => rfl

end Recorders

theorem Callback.calls_call (callback : Callback) (values : List Value) (rs : Recorders)
    (name : String) :
    ((callback.call values rs).1.get name).calls =
      (rs.get name).calls ++ callback.handed name values := by
  cases callback with
  | ignore => simp [call, handed]
  | fail message => simp [call, handed]
  | record recorder =>
      simp only [call, handed, Recorders.get_put]
      split
      case isTrue h =>
        rw [h]
        rfl
      case isFalse => rw [List.append_nil]

namespace Handler

/-- A handler that is offered a text tells, and has values to hand over
where it matches. -/
theorem offer_eq (h : Handler) (t : Text) : h.offer t = .ok (h.told t, h.values? t) := by
  obtain ⟨⟨log, outcome⟩, hr⟩ := Pattern.exists_report_eq_ok h.pattern h.options t
  have hreport : h.report t = .ok ⟨log, outcome⟩ := hr
  cases outcome with
  | matched values => simp [told, values?, offer, hreport, Except.map]
  | mismatch cause => simp [told, values?, offer, hreport, Except.map]

theorem dispatch_eq (h : Handler) (t : Text) (rs : Recorders) :
    h.dispatch t rs =
      (h.told t, (h.values? t).elim (rs, none) fun values => h.callback.call values rs) := by
  rw [dispatch, offer_eq]
  cases h.values? t with
  | none => rfl
  | some values => rfl

theorem calls_dispatch (h : Handler) (t : Text) (rs : Recorders) (name : String) :
    ((h.dispatch t rs).2.1.get name).calls = (rs.get name).calls ++ h.handed name t := by
  rw [dispatch_eq, handed]
  cases h.values? t with
  | none => simp
  | some values => simpa using Callback.calls_call h.callback values rs name

theorem fault_dispatch (h : Handler) (t : Text) (rs : Recorders) :
    (h.dispatch t rs).2.2 = (h.raised? t).map .callback := by
  rw [dispatch_eq, raised?]
  cases h.values? t with
  | none => cases h.callback <;> rfl
  | some values => cases h.callback <;> rfl

end Handler

-- ================================================ what an offer to all does

theorem upToRaising_cons (t : Text) (h : Handler) (hs : List Handler) :
    upToRaising t (h :: hs) =
      if (h.raised? t).isSome then [h] else h :: upToRaising t hs := by
  unfold upToRaising
  cases hraised : h.raised? t with
  | none => simp [hraised]
  | some message => simp [hraised]

theorem dispatchAll_of_raised {t : Text} {h : Handler} {message : String}
    (hraised : h.raised? t = some message) (hs : List Handler) (rs : Recorders) :
    dispatchAll t (h :: hs) rs = h.dispatch t rs := by
  have hfault := h.fault_dispatch t rs
  rcases hdispatch : h.dispatch t rs with ⟨log, rs', fault⟩
  rw [hdispatch, hraised] at hfault
  obtain rfl : fault = some (.callback message) := hfault
  rw [dispatchAll, hdispatch]

theorem dispatchAll_of_not_raised {t : Text} {h : Handler} (hraised : h.raised? t = none)
    (hs : List Handler) (rs : Recorders) :
    dispatchAll t (h :: hs) rs =
      (h.told t ++ (dispatchAll t hs (h.dispatch t rs).2.1).1,
        (dispatchAll t hs (h.dispatch t rs).2.1).2) := by
  have hfault := h.fault_dispatch t rs
  have htold : (h.dispatch t rs).1 = h.told t := by rw [Handler.dispatch_eq]
  rcases hdispatch : h.dispatch t rs with ⟨log, rs', fault⟩
  rw [hdispatch, hraised] at hfault
  obtain rfl : fault = none := hfault
  rw [dispatchAll, hdispatch, ← htold, hdispatch]

/-- Each handler that is asked tells and hands over as it does alone, and
the offer fails with the handler that raises, if one is asked. -/
theorem dispatchAll_spec (t : Text) (hs : List Handler) (rs : Recorders) :
    (dispatchAll t hs rs).1 = (upToRaising t hs).flatMap (Handler.told t) ∧
    (∀ name, ((dispatchAll t hs rs).2.1.get name).calls =
      (rs.get name).calls ++ (upToRaising t hs).flatMap (Handler.handed name t)) ∧
    ∀ e, (dispatchAll t hs rs).2.2 = some e ↔
      ∃ h ∈ upToRaising t hs, ∃ message, h.raised? t = some message ∧ e = .callback message := by
  -- the recorders change from handler to handler, the text and what is said of it do not
  induction hs generalizing rs with
  | nil => simp [dispatchAll, upToRaising]
  | cons h hs ih =>
      rw [upToRaising_cons]
      cases hraised : h.raised? t with
      | some message =>
          rw [dispatchAll_of_raised hraised, Option.isSome_some, if_pos rfl]
          refine ⟨?_, fun name => ?_, fun e => ?_⟩
          · rw [Handler.dispatch_eq, List.flatMap_singleton]
          · rw [Handler.calls_dispatch, List.flatMap_singleton]
          · simp [Handler.fault_dispatch, hraised, eq_comm]
      | none =>
          obtain ⟨htold, hcalls, hfault⟩ := ih (h.dispatch t rs).2.1
          rw [dispatchAll_of_not_raised hraised, if_neg (by simp)]
          refine ⟨?_, fun name => ?_, fun e => ?_⟩
          · rw [htold, List.flatMap_cons]
          · rw [hcalls, Handler.calls_dispatch, List.flatMap_cons, List.append_assoc]
          · rw [hfault]
            simp [hraised]

-- =============================================================== one step

namespace Session

/-- What a step leaves in a recorder: nothing if it empties that, and
otherwise its contribution behind the earlier calls. -/
theorem calls_step (s : Session) (x : Step) (name : String) :
    ((s.step x).1.recorders.get name).calls =
      if x.empties name then []
      else (s.recorders.get name).calls ++ x.contribution name s.handlers := by
  cases x with
  | bind id callback source =>
      have hmention : (s.mention callback).recorders.get name = s.recorders.get name := by
        cases callback with
        | record recorder => exact Recorders.get_ensure recorder name s.recorders
        | ignore => rfl
        | fail message => rfl
      simp only [step, Step.empties, Step.contribution, List.append_nil]
      cases source.handler callback with
      | error e => simp [hmention]
      | ok h => simp [hmention]
  | offer t => exact (dispatchAll_spec t (s.handlers.map Prod.snd) s.recorders).2.1 name
  | tryOne id t =>
      simp only [step, Step.empties, Step.contribution, Step.asked]
      cases Keyed.find? id s.handlers with
      | none => simp
      | some h => simpa using h.calls_dispatch t s.recorders name
  | «match» id t =>
      simp only [step, Step.empties, Step.contribution, List.append_nil]
      cases Keyed.find? id s.handlers with
      | none => rfl
      | some h =>
          simp only
          cases h.report t with
          | error e => rfl
          | ok r => rfl
  | invoke id values =>
      simp only [step, Step.empties, Step.contribution]
      cases Keyed.find? id s.handlers with
      | none => simp
      | some h => simpa using h.callback.calls_call values s.recorders name
  | reset recorder =>
      simp only [step, Step.empties, Step.contribution, Recorders.get_put, List.append_nil,
        decide_eq_true_eq]
      split <;> rfl

theorem resultOf_eq_failed_iff {fault : Option StepFault} {e : StepFault} :
    resultOf fault = .failed e ↔ fault = some e := by
  cases fault <;> simp [resultOf]

/-- Offering a text fails only with the callback of a handler that is
asked. -/
theorem offer_failed_iff (s : Session) (t : Text) (e : StepFault) :
    (s.step (.offer t)).2.1 = .failed e ↔
      ∃ h ∈ (Step.offer t).asked s.handlers, ∃ message,
        h.raised? t = some message ∧ e = .callback message := by
  rw [step, resultOf_eq_failed_iff]
  exact (dispatchAll_spec t (s.handlers.map Prod.snd) s.recorders).2.2 e

/-- Trying a handler fails only with its callback; there has to be one. -/
theorem tryOne_failed_iff (s : Session) (id : String) (t : Text) (e : StepFault) :
    (s.step (.tryOne id t)).2.1 = .failed e ↔
      (Keyed.find? id s.handlers = none ∧ e = .noHandler id) ∨
      ∃ h ∈ (Step.tryOne id t).asked s.handlers, ∃ message,
        h.raised? t = some message ∧ e = .callback message := by
  simp only [step, Step.asked]
  cases Keyed.find? id s.handlers with
  | none => simp [eq_comm]
  | some h =>
      simp only [resultOf_eq_failed_iff, Handler.fault_dispatch, Option.map_eq_some_iff]
      simp [eq_comm]

-- ============================================================== whole runs

theorem history_concat (steps : List Step) (x : Step) :
    history (steps ++ [x]) = history steps ++ [(steps, x)] := by
  have hpast : ∀ i (h : i < steps.length), ((steps ++ [x]).take i, steps[i]) =
      (steps.take i, steps[i]) := fun i h => by
    rw [List.take_append_of_le_length (Nat.le_of_lt h)]
  rw [history, List.mapIdx_concat, List.take_left, List.mapIdx_eq_mapIdx_iff.mpr hpast]
  rfl

theorem sinceEmptied_concat (name : String) (steps : List Step) (x : Step) :
    sinceEmptied name (steps ++ [x]) =
      if x.empties name then [] else sinceEmptied name steps ++ [(steps, x)] := by
  rw [sinceEmptied, history_concat, List.rtakeWhile_concat]
  cases x.empties name <;> rfl

/-- A recorder holds what was contributed to it since it was last
emptied. -/
theorem calls_after (steps : List Step) (name : String) :
    ((after steps).recorders.get name).calls =
      (sinceEmptied name steps).flatMap fun e => e.2.contribution name (bound e.1) := by
  -- the last step comes off first, since it may empty what all others left
  induction steps using List.reverseRecOn with
  | nil => rfl
  | append_singleton steps x ih =>
      rw [after_concat, calls_step, handlers_after, ih, sinceEmptied_concat]
      by_cases hx : x.empties name
      · rw [if_pos hx, if_pos hx, List.flatMap_nil]
      · rw [if_neg hx, if_neg hx, List.flatMap_append, List.flatMap_singleton]

/-- After any steps, each recorder holds what was contributed to it since
it was last emptied. A text that is then offered to all is told of by
those asked, and the offer fails with the one of them that raises. Trying
a handler fails only so too, if there is one. -/
theorem handed_over (steps : List Step) :
    (∀ name, ((after steps).recorders.get name).calls =
      (sinceEmptied name steps).flatMap fun e => e.2.contribution name (bound e.1)) ∧
    (∀ t, ((after steps).step (.offer t)).2.2 =
      ((Step.offer t).asked (bound steps)).flatMap (Handler.told t)) ∧
    (∀ t e, ((after steps).step (.offer t)).2.1 = .failed e ↔
      ∃ h ∈ (Step.offer t).asked (bound steps), ∃ message,
        h.raised? t = some message ∧ e = .callback message) ∧
    (∀ id t e, ((after steps).step (.tryOne id t)).2.1 = .failed e ↔
      (Keyed.find? id (bound steps) = none ∧ e = .noHandler id) ∨
      ∃ h ∈ (Step.tryOne id t).asked (bound steps), ∃ message,
        h.raised? t = some message ∧ e = .callback message) := by
  rw [← handlers_after]
  refine ⟨calls_after steps, fun t => ?_, offer_failed_iff (after steps),
    tryOne_failed_iff (after steps)⟩
  exact (dispatchAll_spec t ((after steps).handlers.map Prod.snd) (after steps).recorders).1

/-- The second binding of `b` fails, so that the third decides where the
offer ends: `a` has had the number by then, and `c` is not asked. -/
example :
    ((after [
      .bind "a" (.record "calls") (.ofDirective (Text.ofChars ['%', 'i']) [.type .int64] {}),
      .bind "b" (.record "calls") (.ofDirective (Text.ofChars ['%', 's']) [.type .str] {}),
      .bind "b" .ignore (.ofDirective (Text.ofChars ['%', 's']) [] {}),
      .bind "b" (.fail "stop") (.ofDirective (Text.ofChars ['%', 's']) [.type .str] {}),
      .bind "c" (.record "calls") (.ofDirective (Text.ofChars ['%', 's']) [.type .str] {}),
      .offer (Text.ofChars ['7']),
      .invoke "c" [.bool true]]).recorders.get "calls").calls = [[.int 7], [.bool true]] := by
  cbv

end Session

end Unformat
