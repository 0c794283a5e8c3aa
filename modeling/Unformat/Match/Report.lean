/-
Matching a text against a pattern: the text is cut, each piece is read
by its placeholder's kind, and each value is fitted to its type. A
piece that yields no value ends the match under the strict policy; under
the lenient one it is dropped and the match goes on. What happens on the
way is told by events, in order.

Fitting may overflow, and then there is no outcome at all; it never
does for what a placeholder reads.
-/
import Unformat.Match.Settings
import Unformat.Pattern
import Unformat.Match.Pieces

namespace Unformat

/-- How a match ends. -/
inductive Outcome where
  | matched (values : List Value)
  | mismatch (cause : Mismatch)
deriving DecidableEq

/-- What is worth telling about a match. -/
inductive Event where
  | dropped (cause : Mismatch)
  | rejected (text directive : Text) (cause : Mismatch)
  | dispatching (text directive : Text)
deriving DecidableEq

/-- The text of an event. -/
def Event.message : Event → String
  | .dropped cause => s!"dropping value: {cause.detail}"
  | .rejected text directive cause =>
      s!"no match for {text.quoted} against {directive.quoted}: {cause.reason.name} " ++
        s!"({cause.detail})"
  | .dispatching text directive => s!"dispatching {text.quoted} to {directive.quoted}"

/-- The outcome of a match and the events on the way. -/
structure Report where
  log : List Event
  outcome : Outcome
deriving DecidableEq

namespace Report

/-- The report with one more value in front, if there are values. -/
def consValue (v : Value) (r : Report) : Report :=
  match r.outcome with
  | .matched values => ⟨r.log, .matched (v :: values)⟩
  | .mismatch cause => ⟨r.log, .mismatch cause⟩

/-- The report with one more event in front. -/
def consEvent (e : Event) (r : Report) : Report :=
  ⟨e :: r.log, r.outcome⟩

end Report

-- ====================================================== reading pieces

/-- The value of the piece at an index, or why there is none. -/
def readPiece (options : Settings) (index : Nat) (piece : List Char) (kind : Kind)
    (target : ElementType) : Except Overflow (Except Mismatch Value) :=
  match kind.read? options.hexMode (Text.ofChars piece) with
  | none => .ok (.error (.undecodable index piece kind))
  | some decoded =>
      match decoded.fit target options.narrowing with
      | .error overflow => .error overflow
      | .ok none => .ok (.error (.unfit index piece target))
      | .ok (some v) => .ok (.ok v)

/-- Reads the pieces from an index on, each with its kind and type. -/
def readPieces (options : Settings) : (index : Nat) → List (List Char × Kind × ElementType) →
    Except Overflow Report
  | _, [] => .ok ⟨[], .matched []⟩
  | index, (piece, kind, target) :: pieces =>
      if !kind.suits target then .ok ⟨[], .mismatch (.misfit index kind target)⟩
      else
        match readPiece options index piece kind target with
        | .error overflow => .error overflow
        | .ok (.ok v) => (readPieces options (index + 1) pieces).map (Report.consValue v)
        | .ok (.error cause) =>
            match options.policy with
            | .strict => .ok ⟨[], .mismatch cause⟩
            | .lenient =>
                (readPieces options (index + 1) pieces).map (Report.consEvent (.dropped cause))

-- ============================================================ matching

namespace Pattern

/-- Cuts a text and reads its pieces. -/
def read (p : Pattern) (options : Settings) (t : Text) : Except Overflow Report :=
  match t.pieces p.tokens with
  | .error cause => .ok ⟨[], .mismatch cause⟩
  | .ok pieces =>
      if pieces.length = p.kinds.length ∧ p.kinds.length = p.shape.length then
        readPieces options 0 (pieces.zip (p.kinds.zip p.shape))
      else .ok ⟨[], .mismatch (.count pieces.length p.kinds.length p.shape.length)⟩

/-- The report with an event at its end if the text was rejected. -/
def closed (p : Pattern) (t : Text) (r : Report) : Report :=
  match r.outcome with
  | .matched _ => r
  | .mismatch cause => ⟨r.log ++ [.rejected t p.directive cause], r.outcome⟩

/-- Matches a text against a pattern. -/
def report (p : Pattern) (options : Settings) (t : Text) : Except Overflow Report :=
  (p.read options t).map (p.closed t)

end Pattern

end Unformat
