/-
Handlers: a valid pattern, options, and the callback that receives the
values of a match. A handler is made from a directive, from a pattern or
from a configuration; in each case the pattern is validated first.
Offered a text, a handler dispatches once if the text matches, and tells
so just before; otherwise it does nothing.
-/
import Unformat.Configuration.Basic
import Unformat.Match.Report

namespace Unformat

/-- What receives the values of a match: nothing, a recorder, by its
name, or something that always fails with a message. -/
inductive Callback where
  | ignore
  | record (recorder : String)
  | fail (message : String)
deriving DecidableEq

/-- A pattern with options and a callback. -/
structure Handler where
  pattern : Pattern
  options : Settings
  callback : Callback

namespace Handler

/-- The handler of a pattern, if that is valid. -/
def ofPattern (p : Pattern) (callback : Callback) (options : Settings) :
    Except ShapeFault Handler := do
  p.check
  return ⟨p, options, callback⟩

/-- The handler of a directive and the entries of its shape. -/
def ofDirective (directive : Text) (entries : List ShapeEntry) (callback : Callback)
    (options : Settings) : Except PatternFault Handler := do
  let p ← Pattern.ofDirective directive entries
  (ofPattern p callback options).mapError .shape

/-- Matches a text. -/
def report (h : Handler) (t : Text) : Except Overflow Report :=
  h.pattern.report h.options t

/-- Offers a text: what is told, and the values to dispatch if the text
matches. -/
def offer (h : Handler) (t : Text) : Except Overflow (List Event × Option (List Value)) :=
  (h.report t).map fun r =>
    match r.outcome with
    | .matched values => (r.log ++ [.dispatching t h.pattern.directive], some values)
    | .mismatch _ => (r.log, none)

end Handler

/-- The handler of a configuration. -/
def Configuration.handler (c : Configuration) (callback : Callback) :
    Except PatternFault Handler := do
  let p ← c.pattern
  (Handler.ofPattern p callback c.options).mapError .shape

end Unformat
