/-
What the command that matches answers, and that this is what is decided
on the text and nothing else (`MatchRequest.reply_reports`).

A configuration decides on a text in one of three ways: it makes no
handler, its handler finds no match, or it finds values. There is always
one decision (`Configuration.exists_decides`) and never two
(`Configuration.Decides.eq`), for a match never overflows. The answer of
a request is then that of the decision, once its configuration is known
(`MatchRequest.reports_of_config`), and the flags and a file are two ways
to give one.

How an answer reports a decision is said without what prints it: values
are those that a reader of JSON finds in the line (`Reports`). Texts that
are matched are made of characters and fitting makes no texts of anything
else (`isWhole_of_report`), so the line is read. Two decisions are not
reported as they should be. A directive that cannot be encoded ends the
run without an answer, and with an infinity among the values the line is
no JSON.
-/
import Unformat.CommandLine.Program
import Unformat.Proofs.CommandLine.JsonLine
import Unformat.Proofs.Directive.Offsets
import Unformat.Proofs.Match.Reading
import Unformat.Proofs.Match.Typed
import Unformat.Proofs.Session.Sources
import Unformat.Yaml.Document

namespace Unformat

-- ============================================== statement vocabulary

/-- What a configuration decides on a text: that it makes no handler, or
how the handler's match ends. -/
def Configuration.Decides (c : Configuration) (t : Text) : Except PatternFault Outcome → Prop
  | .error e => c.handler .ignore = .error e
  | .ok outcome => ∃ h log, c.handler .ignore = .ok h ∧ h.report t = .ok ⟨log, outcome⟩

/-- How a run that tells nothing on the way reports a decision: with an
exit code, and one line for an error, for why there is no match, or for
the values. The values are those that are read from their line, unless an
infinity keeps it from being read. -/
inductive CommandLine.Reports : Except PatternFault Outcome → Except Crash Reply → Prop where
  | crash (fault : EncodingFault) :
      Reports (.error (.encoding fault)) (.error (.encoding fault))
  | refusal (fault : ShapeFault) :
      Reports (.error (.shape fault)) (.ok ⟨2, "", s!"Error: {fault.message}\n"⟩)
  | mismatch (cause : Mismatch) :
      Reports (.ok (.mismatch cause))
        (.ok ⟨1, "", s!"no match: {cause.reason.name}: {cause.detail}\n"⟩)
  | matched {values : List Value} {line : List Char} {items : List Json}
      (hline : ∀ c ∈ line, isVisibleAscii c = true)
      (hread : Json.read? line = some (.array items))
      (hitems : List.Forall₂ Value.ReadsBackAs values items) :
      Reports (.ok (.matched values)) (.ok ⟨0, String.ofList (line ++ ['\n']), ""⟩)
  | infinite {values : List Value} (hvalue : ∃ v ∈ values, ¬ v.IsFinite)
      (hread : Json.read? (JsonLine.write values) = none) :
      Reports (.ok (.matched values))
        (.ok ⟨0, String.ofList (JsonLine.write values ++ ['\n']), ""⟩)

-- ============================================================= matches

/-- A text that is read is made of characters. -/
theorem isWhole_of_read? {kind : Kind} {mode : HexReading} {cs : List Char} {v : Value}
    (h : kind.read? mode (Text.ofChars cs) = some v) : v.IsWhole := by
  cases kind with
  | string =>
      cases h
      exact ⟨cs, rfl⟩
  | char =>
      obtain ⟨t, hread, rfl⟩ := Option.map_eq_some_iff.mp h
      exact ⟨cs, (readChar?_eq_some_iff.mp hread).2.symm⟩
  | bool | int | decimal | hex =>
      obtain ⟨_, -, rfl⟩ := Option.map_eq_some_iff.mp h
      trivial

/-- Fitting makes no text of anything else. -/
theorem isWhole_of_fit {u v : Value} {target : ElementType} {narrowing : Narrowing}
    (hu : u.IsWhole) (h : u.fit target narrowing = .ok (some v)) : v.IsWhole := by
  cases u with
  | str t =>
      cases target with
      | char =>
          obtain ⟨t', hread, rfl⟩ := Option.map_eq_some_iff.mp (Except.ok.inj h)
          exact (readChar?_eq_some_iff.mp hread).2 ▸ hu
      | _ =>
          cases Except.ok.inj h
          exact hu
  | int n =>
      cases target with
      | int32 | uint32 =>
          obtain ⟨m, -, rfl⟩ := Option.map_eq_some_iff.mp (Except.ok.inj h)
          trivial
      | float =>
          simp only [Value.fit] at h
          split at h
          · cases Except.ok.inj h
            trivial
          · cases h
      | _ =>
          cases Except.ok.inj h
          trivial
  | bool | decimal | float =>
      cases target <;> cases Except.ok.inj h <;> trivial

theorem isWhole_of_report {p : Pattern} {options : Settings} {t : Text} {log : List Event}
    {values : List Value} (h : p.report options t = .ok ⟨log, .matched values⟩) :
    ∀ v ∈ values, v.IsWhole := by
  obtain ⟨pieces, -, -, hread⟩ := Pattern.report_eq_matched_iff.mp h
  intro v hv
  rw [values_eq_of_matched hread] at hv
  obtain ⟨⟨piece, kind, target⟩, -, hvalue⟩ := List.mem_filterMap.mp hv
  obtain ⟨u, hu, hfit⟩ := Entry.value?_eq_some_iff.mp hvalue
  exact isWhole_of_fit (isWhole_of_read? hu) hfit

-- =========================================================== decisions

namespace Configuration

variable {c : Configuration} {t : Text}

/-- There is a decision on every text. -/
theorem exists_decides (c : Configuration) (t : Text) : ∃ decision, c.Decides t decision := by
  cases hhandler : c.handler .ignore with
  | error e => exact ⟨.error e, hhandler⟩
  | ok h =>
      obtain ⟨⟨log, outcome⟩, hreport⟩ := h.pattern.exists_report_eq_ok h.options t
      exact ⟨.ok outcome, h, log, hhandler, hreport⟩

/-- There is only one. -/
theorem Decides.eq {d d' : Except PatternFault Outcome} (hd : c.Decides t d)
    (hd' : c.Decides t d') : d = d' := by
  cases d with
  | error e =>
      cases d' with
      | error e' =>
          have he : c.handler .ignore = .error e := hd
          rw [Except.error.inj (he.symm.trans hd')]
      | ok outcome' =>
          obtain ⟨h', log', hhandler', -⟩ := hd'
          exact absurd (hd.symm.trans hhandler') (by simp)
  | ok outcome =>
      obtain ⟨h, log, hhandler, hreport⟩ := hd
      cases d' with
      | error e' => exact absurd (hhandler.symm.trans hd') (by simp)
      | ok outcome' =>
          obtain ⟨h', log', hhandler', hreport'⟩ := hd'
          obtain rfl : h = h' := Except.ok.inj (hhandler.symm.trans hhandler')
          have hlog := Except.ok.inj (hreport.symm.trans hreport')
          rw [(Report.mk.inj hlog).2]

theorem Decides.iff {d d' : Except PatternFault Outcome} (hd : c.Decides t d) :
    c.Decides t d' ↔ d' = d :=
  ⟨fun hd' => hd'.eq hd, fun h => h ▸ hd⟩

/-- A configuration decides for want of an encoding exactly if half a
surrogate pair stands alone in its directive. -/
theorem exists_decides_encoding_iff :
    (∃ fault, c.Decides t (.error (.encoding fault))) ↔
      ∃ half, CodePoint.lone half ∈ c.directive := by
  have htokens := Directive.exists_tokens_iff c.directive
  simp only [Decides, handler_eq_error_encoding_iff]
  cases h : Directive.tokens c.directive with
  | error fault =>
      rw [h] at htokens
      refine iff_of_true ⟨fault, rfl⟩ (not_forall_not.mp fun hnone => ?_)
      obtain ⟨ts, hts⟩ := htokens.mpr hnone
      cases hts
  | ok ts =>
      rw [h] at htokens
      refine iff_of_false nofun (not_exists.mpr (htokens.mp ⟨ts, rfl⟩))

end Configuration

-- ============================================================= answers

namespace CommandLine.MatchRequest

variable {read : DocumentReader} {files : Files} {r : MatchRequest} {c : Configuration}

/-- A request whose configuration makes a handler answers for what the
handler reports. -/
theorem reply_of_report {h : Handler} {report : Report} (hconfig : r.config read files = .ok c)
    (hhandler : c.handler .ignore = .ok h) (hreport : h.report r.text = .ok report)
    (verbose : Bool) :
    r.reply read files verbose = .ok (answer verbose r.text report) := by
  have hmade : r.handler read files = .ok h :=
    bind_eq_ok_iff.mpr ⟨c, hconfig, mapError_eq_ok_iff.mpr hhandler⟩
  simp only [reply, hmade, matchWith, hreport]

/-- A request whose configuration is known reports what that configuration
decides. -/
theorem reports_of_config {d : Except PatternFault Outcome}
    (hconfig : r.config read files = .ok c) (hd : c.Decides r.text d) :
    Reports d (r.reply read files false) := by
  cases d with
  | error e =>
      have hhandler : c.handler .ignore = .error e := hd
      have hreply : r.reply read files false =
          match Stop.ofPattern e with
          | .misuse e => .ok (.misuse e)
          | .crash e => .error e := by
        have hstop : r.handler read files = .error (.ofPattern e) :=
          bind_eq_error_iff.mpr (Or.inr ⟨c, hconfig, mapError_eq_error_iff.mpr ⟨e, hhandler, rfl⟩⟩)
        rw [reply, hstop]
        cases e with
        | encoding fault => rfl
        | shape fault => rfl
      rw [hreply]
      cases e with
      | encoding fault => exact .crash fault
      | shape fault => exact .refusal fault
  | ok outcome =>
      obtain ⟨h, log, hhandler, hreport⟩ := hd
      rw [reply_of_report hconfig hhandler hreport]
      cases outcome with
      | mismatch cause =>
          have hreports := Reports.mismatch cause
          simpa [answer, told] using hreports
      | matched values =>
          have hwhole := isWhole_of_report hreport
          have hanswer : answer false r.text ⟨log, .matched values⟩ =
              ⟨0, String.ofList (JsonLine.write values ++ ['\n']), ""⟩ := by
            simp [answer, told, toldCount, String.ofList_append]
          rw [hanswer]
          by_cases hfinite : ∀ v ∈ values, v.IsFinite
          · obtain ⟨items, hread, hitems⟩ := JsonLine.exists_read?_write hwhole hfinite
            exact .matched (fun c => JsonLine.visible_of_mem_write) hread hitems
          · have hinfinite : ∃ v ∈ values, ¬ v.IsFinite := by simpa using hfinite
            exact .infinite hinfinite (JsonLine.read?_write_eq_none hwhole hinfinite)

/-- Two requests on one text whose configurations are equal have one
answer. -/
theorem reply_eq_of_config_eq {r' : MatchRequest} (htext : r'.text = r.text)
    (hconfig : r'.config read files = r.config read files) (verbose : Bool) :
    r'.reply read files verbose = r.reply read files verbose := by
  rw [reply, reply, handler, handler, htext, hconfig]

/-- The configuration in a file counts, whatever else is given. -/
theorem config_of_file {path : Text} {contents : List Char} (hpath : r.configPath = some path)
    (hfile : files path = some (.file (some contents)))
    (hread : Configuration.ofFile read contents = .ok c) : r.config read files = .ok c := by
  simp only [config, hpath, readFile, fileAt, hfile, bind, Except.bind, hread]
  rfl

/-- A request by flags reports what the configuration of these flags
decides, and there is one decision: exit code 2 and why it makes no
handler, exit code 1 and why there is no match, or exit code 0 and the
values. Only half a surrogate pair that stands alone in the directive ends
the run without an answer. A request on the same text that names a file
with this configuration has the same answer, however files are read and
whatever its flags, in verbose runs as in others. -/
theorem reply_reports (text directive : Text) (names : List Text) (lenient : Bool)
    (hexMode : HexReading) (checked : Bool) :
    let options : Settings :=
      ⟨if lenient then .lenient else .strict, hexMode, if checked then .checked else .wrap⟩
    let c : Configuration := ⟨directive, names, options⟩
    let r : MatchRequest :=
      { text, directive := some directive, shape := names, lenient, hexMode, checked }
    ∃ decision, (∀ d, c.Decides text d ↔ d = decision) ∧
      (∀ read files, Reports decision (r.reply read files false)) ∧
      ((∃ fault, decision = .error (.encoding fault)) ↔
        ∃ half, CodePoint.lone half ∈ directive) ∧
      ∀ (read : DocumentReader) (files : Files) (r' : MatchRequest) (path : Text)
        (contents : List Char), r'.text = text → r'.configPath = some path →
          files path = some (.file (some contents)) →
          Configuration.ofFile read contents = .ok c →
            ∀ verbose, r'.reply read files verbose = r.reply read files verbose := by
  intro options c r
  have hconfig : ∀ read files, r.config read files = .ok c := fun _ _ => rfl
  obtain ⟨decision, hdecision⟩ := c.exists_decides text
  refine ⟨decision, fun d => hdecision.iff, fun read files => ?_, ?_, ?_⟩
  · exact reports_of_config (hconfig read files) hdecision
  · rw [← Configuration.exists_decides_encoding_iff (c := c) (t := text)]
    simp only [hdecision.iff, eq_comm]
  · intro read files r' path contents htext hpath hfile hread
    have hsame := (config_of_file hpath hfile hread).trans (hconfig read files).symm
    exact reply_eq_of_config_eq htext hsame

/-- Half a surrogate pair as a directive keeps the handler from being made,
but nothing is answered; and what is printed of an infinity is no JSON. -/
theorem no_report_lone_half_infinity :
    let half : MatchRequest := { text := Text.ofChars ['x'], directive := some [.lone 0x4FF] }
    let large : MatchRequest :=
      { text := Text.ofChars "1e400".toList, directive := some (Text.ofChars "%f".toList),
        shape := [Text.ofChars "float".toList] }
    (∃ e, (⟨[.lone 0x4FF], [], {}⟩ : Configuration).handler .ignore = .error e) ∧
      (∀ read files answer, half.reply read files false ≠ .ok answer) ∧
      (∀ read files, large.reply read files false = .ok ⟨0, "[Infinity]\n", ""⟩) ∧
      Json.read? "[Infinity]".toList = none := by
  intro half large
  have hhalf : Directive.tokens [.lone 0x4FF] = .error ⟨[.lone 0x4FF], rfl⟩ := by decide +kernel
  have hlarge : Directive.tokens (Text.ofChars "%f".toList) = .ok [.placeholder .decimal] := by
    decide +kernel
  let p : Pattern := ⟨Text.ofChars "%f".toList, [.placeholder .decimal], [.float]⟩
  let c : Configuration := ⟨Text.ofChars "%f".toList, [Text.ofChars "float".toList], {}⟩
  refine ⟨⟨_, Configuration.handler_eq_error_encoding_iff.mpr hhalf⟩, fun read files => ?_,
    fun read files => ?_, ?_⟩
  · intro answer hanswer
    have hdecides : (⟨[.lone 0x4FF], [], {}⟩ : Configuration).Decides half.text
        (.error (.encoding ⟨[.lone 0x4FF], rfl⟩)) :=
      Configuration.handler_eq_error_encoding_iff.mpr hhalf
    have hreports : Reports _ (half.reply read files false) := reports_of_config rfl hdecides
    rw [hanswer] at hreports
    cases hreports
  · have hhandler : c.handler .ignore = .ok ⟨p, {}, .ignore⟩ :=
      Configuration.handler_of_parts hlarge rfl rfl .ignore
    have hreport : p.report {} large.text =
        .ok ⟨[], .matched [.float (Binary64.infinity false)]⟩ := by decide +kernel
    exact reply_of_report (c := c) rfl hhandler hreport false
  · have hwhole : ∀ v ∈ [Value.float (Binary64.infinity false)], v.IsWhole :=
      List.forall_mem_singleton.mpr trivial
    exact JsonLine.read?_write_eq_none hwhole
      ⟨_, List.mem_singleton_self _, Bool.false_ne_true⟩

/-- Of two values the one that does not fit is dropped, as flags or a
file ask for. -/
example :
    let text := Text.ofChars "9999999999/x".toList
    let contents := "directive: '%i/%s'\nshape: [int32, str]\n".toList ++
      "options:\n  policy: lenient\n  narrowing: checked\n".toList
    let files : Files := fun path =>
      if path = Text.ofChars ['f'] then some (.file (some contents)) else none
    let flags : MatchRequest :=
      { text, directive := some (Text.ofChars "%i/%s".toList),
        shape := ["int32", "str"].map fun name => Text.ofChars name.toList,
        lenient := true, checked := true }
    let config : MatchRequest :=
      { text, directive := some (Text.ofChars "%d".toList),
        configPath := some (Text.ofChars ['f']), hexMode := .base16 }
    (flags.reply Yaml.readDocument files false).toOption = some ⟨0, "[\"x\"]\n", ""⟩ ∧
      (config.reply Yaml.readDocument files false).toOption = some ⟨0, "[\"x\"]\n", ""⟩ := by
  decide +kernel

end CommandLine.MatchRequest

end Unformat
