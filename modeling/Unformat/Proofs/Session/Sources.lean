/-
What handlers are made from, and what comes of it. A handler is valid
however it is made, and what keeps it from being made is a fault of the
shape or of the configuration, or a directive that cannot be encoded
(`HandlerSource.valid_of_handler`, `HandlerSource.fault_of_handler`).

A configuration can be given in three ways: as a directive with names and
options, as the pattern of the two, and as a dictionary in which it is
written. They check the pattern once or twice and read the options or
not, but they make one handler or fail for one fault
(`HandlerSource.routes_agree`). Nothing that follows can tell them apart
then: matching, what is told, and the calls of the callback all start
from the handler.
-/
import Unformat.Proofs.Configuration.Written
import Unformat.Proofs.Match.Reading
import Unformat.Session.Basic

namespace Unformat

-- ============================================================= handlers

namespace Handler

variable {callback : Callback} {options : Settings} {h : Handler} {e : ShapeFault}

theorem ofPattern_eq_ok_iff {p : Pattern} :
    ofPattern p callback options = .ok h ↔ p.check = .ok () ∧ h = ⟨p, options, callback⟩ := by
  simp only [ofPattern, bind_eq_ok_iff]
  constructor
  · rintro ⟨⟨⟩, hcheck, hmade⟩
    exact ⟨hcheck, (Except.ok.inj hmade).symm⟩
  · rintro ⟨hcheck, rfl⟩
    exact ⟨(), hcheck, rfl⟩

theorem ofPattern_eq_error_iff {p : Pattern} :
    ofPattern p callback options = .error e ↔ p.check = .error e := by
  rw [ofPattern, bind_eq_error_iff]
  exact or_iff_left fun ⟨_, _, hmade⟩ => by cases hmade

variable {directive : Text} {entries : List ShapeEntry}

theorem ofDirective_eq_ok_iff :
    ofDirective directive entries callback options = .ok h ↔
      Pattern.ofDirective directive entries = .ok h.pattern ∧ h.pattern.check = .ok () ∧
        h.options = options ∧ h.callback = callback := by
  obtain ⟨p', options', callback'⟩ := h
  simp only [ofDirective, bind_eq_ok_iff, mapError_eq_ok_iff, ofPattern_eq_ok_iff, mk.injEq]
  constructor
  · rintro ⟨p, hp, hcheck, rfl, rfl, rfl⟩
    exact ⟨hp, hcheck, rfl, rfl⟩
  · rintro ⟨hp, hcheck, rfl, rfl⟩
    exact ⟨p', hp, hcheck, rfl, rfl, rfl⟩

theorem ofDirective_eq_error_iff {e : PatternFault} :
    ofDirective directive entries callback options = .error e ↔
      Pattern.ofDirective directive entries = .error e ∨
        ∃ p fault, Pattern.ofDirective directive entries = .ok p ∧ p.check = .error fault ∧
          e = .shape fault := by
  rw [ofDirective, bind_eq_error_iff]
  simp only [mapError_eq_error_iff, ofPattern_eq_error_iff, exists_and_left]

end Handler

/-- The handler of a configuration is that of its parts, for the second
check repeats the first. -/
theorem Configuration.handler_eq (c : Configuration) (callback : Callback) :
    c.handler callback =
      Handler.ofDirective c.directive (c.shape.map .text) callback c.options := by
  unfold Configuration.handler Configuration.pattern Handler.ofDirective
  cases Pattern.ofDirective c.directive (c.shape.map .text) with
  | error e => rfl
  | ok p =>
      show ((p.check.mapError PatternFault.shape >>= fun _ => .ok p) >>= fun p =>
        (Handler.ofPattern p callback c.options).mapError PatternFault.shape) =
          (Handler.ofPattern p callback c.options).mapError PatternFault.shape
      cases hcheck : p.check with
      | error e =>
          rw [Handler.ofPattern_eq_error_iff.mpr hcheck]
          rfl
      | ok u => rfl

/-- The handler of a directive with tokens and of names with types that
suit them. -/
theorem Configuration.handler_of_parts {c : Configuration} {tokens : List Token} {shape : Shape}
    (htokens : Directive.tokens c.directive = .ok tokens)
    (hshape : Shape.ofEntries (c.shape.map .text) = .ok shape)
    (hcheck : Pattern.check ⟨c.directive, tokens, shape⟩ = .ok ()) (callback : Callback) :
    c.handler callback = .ok ⟨⟨c.directive, tokens, shape⟩, c.options, callback⟩ := by
  rw [handler_eq]
  exact Handler.ofDirective_eq_ok_iff.mpr
    ⟨Pattern.ofDirective_eq_ok_iff.mpr ⟨rfl, htokens, hshape⟩, hcheck, rfl, rfl⟩

/-- A configuration makes no handler for want of an encoding exactly if its
directive has no tokens. -/
theorem Configuration.handler_eq_error_encoding_iff {c : Configuration} {fault : EncodingFault} :
    c.handler callback = .error (.encoding fault) ↔
      Directive.tokens c.directive = .error fault := by
  rw [handler_eq, Handler.ofDirective_eq_error_iff, Pattern.ofDirective_eq_error_encoding_iff]
  exact or_iff_left fun ⟨_, _, _, _, hfault⟩ => by cases hfault

-- ============================================================= sources

namespace HandlerSource

variable {callback : Callback}

/-- Whatever a handler is made from, its pattern is checked, and it has
the callback. -/
theorem valid_of_handler {source : HandlerSource} {h : Handler}
    (hmade : source.handler callback = .ok h) :
    h.pattern.check = .ok () ∧ h.callback = callback := by
  cases source with
  | ofDirective directive shape options =>
      obtain ⟨-, hcheck, -, hcallback⟩ :=
        Handler.ofDirective_eq_ok_iff.mp (mapError_eq_ok_iff.mp hmade)
      exact ⟨hcheck, hcallback⟩
  | ofPattern source options =>
      obtain ⟨p, -, hp⟩ := bind_eq_ok_iff.mp (mapError_eq_ok_iff.mp hmade)
      obtain ⟨hcheck, rfl⟩ := Handler.ofPattern_eq_ok_iff.mp (mapError_eq_ok_iff.mp hp)
      exact ⟨hcheck, rfl⟩
  | ofConfig data =>
      unfold handler at hmade
      cases hdata : Configuration.ofDatum data with
      | error e => simp [hdata] at hmade
      | ok c =>
          simp only [hdata, c.handler_eq] at hmade
          obtain ⟨-, hcheck, -, hcallback⟩ :=
            Handler.ofDirective_eq_ok_iff.mp (mapError_eq_ok_iff.mp hmade)
          exact ⟨hcheck, hcallback⟩

/-- Only a fault of the shape or of the configuration, or a directive that
cannot be encoded, keeps a handler from being made. -/
theorem fault_of_handler {source : HandlerSource} {e : StepFault}
    (hfailed : source.handler callback = .error e) :
    (∃ fault, e = .pattern (.shape fault)) ∨ (∃ fault, e = .config fault) ∨
      ∃ fault, e = .pattern (.encoding fault) := by
  have hpattern : ∀ {r : Except PatternFault Handler}, r.mapError StepFault.pattern = .error e →
      (∃ fault, e = .pattern (.shape fault)) ∨ (∃ fault, e = .config fault) ∨
        ∃ fault, e = .pattern (.encoding fault) := by
    intro r hr
    obtain ⟨fault, -, rfl⟩ := mapError_eq_error_iff.mp hr
    cases fault with
    | shape fault => exact .inl ⟨fault, rfl⟩
    | encoding fault => exact .inr (.inr ⟨fault, rfl⟩)
  cases source with
  | ofDirective directive shape options => exact hpattern hfailed
  | ofPattern source options => exact hpattern hfailed
  | ofConfig data =>
      unfold handler at hfailed
      cases hdata : Configuration.ofDatum data with
      | error fault =>
          simp only [hdata] at hfailed
          exact .inr (.inl ⟨fault, (Except.error.inj hfailed).symm⟩)
      | ok c =>
          simp only [hdata] at hfailed
          exact hpattern hfailed

/-- The dictionary in which a configuration is written makes the handler
of its parts. -/
theorem handler_of_writtenIn {c : Configuration} {entries : Keyed Scalar Datum}
    (h : c.WrittenIn entries) (callback : Callback) :
    (ofConfig (.dict entries)).handler callback =
      (Handler.ofDirective c.directive (c.shape.map .text) callback c.options).mapError
        .pattern := by
  simp only [handler, Configuration.ofDatum_of_writtenIn h, c.handler_eq]

/-- A directive with names and options, the pattern of the two, and a
dictionary in which all of them are written, all fail for one fault, or
all make one handler. They fail for a directive that cannot be encoded, for
a name that is no type, or as the check of the pattern does; otherwise the
handler is that of the pattern, with these options and this callback. -/
theorem routes_agree {directive : Text} {names : List Text} {options : Settings}
    {entries : Keyed Scalar Datum}
    (h : Configuration.WrittenIn ⟨directive, names, options⟩ entries) (callback : Callback) :
    let shape := names.map ShapeEntry.text
    let routes := [ofDirective directive shape options,
      ofPattern (.ofDirective directive shape) options, ofConfig (.dict entries)]
    (∃ e, (Pattern.ofDirective directive shape = .error e ∨
        ∃ p fault, Pattern.ofDirective directive shape = .ok p ∧ p.check = .error fault ∧
          e = .shape fault) ∧
      ∀ source ∈ routes, source.handler callback = .error (.pattern e)) ∨
    ∃ made : Handler, (Pattern.ofDirective directive shape = .ok made.pattern ∧
        made.pattern.check = .ok () ∧ made.options = options ∧ made.callback = callback) ∧
      ∀ source ∈ routes, source.handler callback = .ok made := by
  intro shape routes
  have hroutes : ∀ source ∈ routes, source.handler callback =
      (Handler.ofDirective directive shape callback options).mapError .pattern := by
    refine List.forall_mem_cons.mpr ⟨rfl, List.forall_mem_cons.mpr ⟨rfl, ?_⟩⟩
    exact List.forall_mem_singleton.mpr (handler_of_writtenIn h callback)
  cases hmade : Handler.ofDirective directive shape callback options with
  | error e =>
      refine .inl ⟨e, Handler.ofDirective_eq_error_iff.mp hmade, fun source hsource => ?_⟩
      rw [hroutes source hsource, hmade]
      rfl
  | ok made =>
      refine .inr ⟨made, Handler.ofDirective_eq_ok_iff.mp hmade, fun source hsource => ?_⟩
      rw [hroutes source hsource, hmade]
      rfl

/-- Names in any case, keys in any order, and a key of something else. -/
theorem routes_agree_mixed_case :
    let directive := Text.ofChars "%i-%s".toList
    let names := [Text.ofChars " INT32 ".toList, Text.ofChars "str".toList]
    let options : Settings := ⟨.lenient, .base16, .checked⟩
    let written : Keyed Scalar Datum :=
      [(.word "narrowing", .scalar (.word "CHECKED")),
       (.word "policy", .scalar (.word "Lenient")),
       (.word "hex_mode", .scalar (.word "bASE16"))]
    let entries : Keyed Scalar Datum :=
      [(.word "options", .dict written),
       (.word "shape", .list (names.map fun name => .scalar (.str name))),
       (.bool true, .list []),
       (.word "directive", .scalar (.str directive))]
    Configuration.WrittenIn ⟨directive, names, options⟩ entries ∧
      ∃ made : Handler, made.options = options ∧
        ∀ source ∈ [ofDirective directive (names.map .text) options,
          ofPattern (.ofDirective directive (names.map .text)) options,
          ofConfig (.dict entries)], source.handler .ignore = .ok made := by
  intro directive names options written entries
  have hoptions : options.WrittenIn written :=
    { known := by decide
      writes := by
        rintro (_ | _ | _)
        · exact ⟨"Lenient".toList, rfl, by decide⟩
        · exact ⟨"bASE16".toList, rfl, by decide⟩
        · exact ⟨"CHECKED".toList, rfl, by decide⟩ }
  have hwritten : Configuration.WrittenIn ⟨directive, names, options⟩ entries :=
    ⟨rfl, .inl rfl, hoptions⟩
  let tokens : List Token := [.placeholder .int, .literal ['-'], .placeholder .string]
  have htokens : Directive.tokens directive = .ok tokens :=
    toOption_eq_some_iff.mp (by decide +kernel)
  have hshape : Shape.ofEntries (names.map .text) = .ok [.int32, .str] := rfl
  have hp : Pattern.ofDirective directive (names.map .text) =
      .ok ⟨directive, tokens, [.int32, .str]⟩ :=
    Pattern.ofDirective_eq_ok_iff.mpr ⟨rfl, htokens, hshape⟩
  refine ⟨hwritten, ?_⟩
  rcases routes_agree hwritten .ignore with ⟨e, hfault, -⟩ | ⟨made, ⟨-, -, hmade, -⟩, hroutes⟩
  · rcases hfault with hnone | ⟨p', fault, hp', hrefused, -⟩
    · rw [hp] at hnone
      cases hnone
    · rw [hp] at hp'
      cases hp'
      cases hrefused
  · exact ⟨made, hmade, hroutes⟩

end HandlerSource

end Unformat
