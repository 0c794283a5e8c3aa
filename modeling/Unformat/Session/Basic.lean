/-
Sessions: handlers under ids, and recorders under names, which hold the
calls that they received. A session runs step by step. A step tells
events, may change the session, and has a result; a step that fails
keeps what it did before it failed.

- Binding a handler puts it in place of an older one under its id. If it
  fails, no handler changes, but a recorder named for the first time is
  there from then on.
- A text is offered to one handler, or to all in order up to the first
  failing callback.
- Matching only tells; invoking hands values over without matching;
  resetting empties a recorder.
-/
import Unformat.Handler
import Unformat.Session.Recorder

namespace Unformat

-- ============================================================== steps

/-- What a pattern is made from: a directive, or tokens beside one that
is only shown. Either comes with the entries of a shape. -/
inductive PatternSource where
  | ofDirective (directive : Text) (shape : List ShapeEntry)
  | ofTokens (directive : Text) (tokens : List Token) (shape : List ShapeEntry)

/-- The pattern of a source. -/
def PatternSource.pattern : PatternSource → Except PatternFault Pattern
  | .ofDirective directive shape => Pattern.ofDirective directive shape
  | .ofTokens directive tokens shape =>
      ((Shape.ofEntries shape).mapError .shape).map fun s => ⟨directive, tokens, s⟩

/-- What a handler is made from. -/
inductive HandlerSource where
  | ofDirective (directive : Text) (shape : List ShapeEntry) (options : Settings)
  | ofPattern (source : PatternSource) (options : Settings)
  | ofConfig (data : Datum)

/-- A step of a session. -/
inductive Step where
  | bind (id : String) (callback : Callback) (source : HandlerSource)
  | offer (t : Text)
  | tryOne (id : String) (t : Text)
  | match (id : String) (t : Text)
  | invoke (id : String) (values : List Value)
  | reset (recorder : String)

/-- Why a step fails. -/
inductive StepFault where
  | pattern (e : PatternFault)
  | config (e : ConfigurationFault)
  | overflow (e : Overflow)
  | callback (message : String)
  | noHandler (id : String)

/-- The text of a failure. -/
def StepFault.message : StepFault → String
  | .pattern e => e.message
  | .config e => e.message
  | .overflow e => e.message
  | .callback message => message
  | .noHandler id => id

/-- The result of a step. -/
inductive StepResult where
  | done
  | bound (options : Settings)
  | outcome (o : Outcome)
  | failed (e : StepFault)

/-- The handler of a source. -/
def HandlerSource.handler (source : HandlerSource) (callback : Callback) :
    Except StepFault Handler :=
  match source with
  | .ofDirective directive shape options =>
      (Handler.ofDirective directive shape callback options).mapError .pattern
  | .ofPattern source options =>
      (source.pattern.bind fun p =>
        (Handler.ofPattern p callback options).mapError .shape).mapError .pattern
  | .ofConfig data =>
      match Configuration.ofDatum data with
      | .error e => .error (.config e)
      | .ok c => (c.handler callback).mapError .pattern

-- =========================================================== sessions

/-- Handlers under ids, in the order in which the ids were first bound,
and recorders under names. -/
structure Session where
  handlers : Keyed String Handler := []
  recorders : Recorders := []

/-- The recorders after a callback received values, and its failure, if
it is one that fails. -/
def Callback.call (callback : Callback) (values : List Value) (rs : Recorders) :
    Recorders × Option StepFault :=
  match callback with
  | .ignore => (rs, none)
  | .record name => (Keyed.put name ((rs.get name).record values) rs, none)
  | .fail message => (rs, some (.callback message))

/-- Offers a text to a handler: what is told, the recorders afterwards,
and a failure. -/
def Handler.dispatch (h : Handler) (t : Text) (rs : Recorders) :
    List Event × Recorders × Option StepFault :=
  match h.offer t with
  | .error e => ([], rs, some (.overflow e))
  | .ok (log, none) => (log, rs, none)
  | .ok (log, some values) => (log, h.callback.call values rs)

/-- Offers a text to handlers in order, up to the first failure. -/
def dispatchAll (t : Text) :
    List Handler → Recorders → List Event × Recorders × Option StepFault
  | [], rs => ([], rs, none)
  | h :: hs, rs =>
      match h.dispatch t rs with
      | (log, rs, some e) => (log, rs, some e)
      | (log, rs, none) =>
          let (more, rs, e) := dispatchAll t hs rs
          (log ++ more, rs, e)

namespace Session

/-- The result of a step without one of its own. -/
def resultOf : Option StepFault → StepResult
  | none => .done
  | some e => .failed e

/-- The session in which the recorder of a callback is known. -/
def mention (s : Session) : Callback → Session
  | .record name => { s with recorders := s.recorders.ensure name }
  | _ => s

/-- One step: the session afterwards, the result, and what is told. -/
def step (s : Session) : Step → Session × StepResult × List Event
  | .bind id callback source =>
      let s := s.mention callback
      match source.handler callback with
      | .error e => (s, .failed e, [])
      | .ok h => ({ s with handlers := Keyed.put id h s.handlers }, .bound h.options, [])
  | .offer t =>
      let (log, rs, e) := dispatchAll t (s.handlers.map Prod.snd) s.recorders
      ({ s with recorders := rs }, resultOf e, log)
  | .tryOne id t =>
      match Keyed.find? id s.handlers with
      | none => (s, .failed (.noHandler id), [])
      | some h =>
          let (log, rs, e) := h.dispatch t s.recorders
          ({ s with recorders := rs }, resultOf e, log)
  | .match id t =>
      match Keyed.find? id s.handlers with
      | none => (s, .failed (.noHandler id), [])
      | some h =>
          match h.report t with
          | .error e => (s, .failed (.overflow e), [])
          | .ok r => (s, .outcome r.outcome, r.log)
  | .invoke id values =>
      match Keyed.find? id s.handlers with
      | none => (s, .failed (.noHandler id), [])
      | some h =>
          let (rs, e) := h.callback.call values s.recorders
          ({ s with recorders := rs }, resultOf e, [])
  | .reset name => ({ s with recorders := Keyed.put name {} s.recorders }, .done, [])

/-- The session after some steps. -/
def run (s : Session) (steps : List Step) : Session :=
  steps.foldl (fun s x => (s.step x).1) s

end Session

end Unformat
