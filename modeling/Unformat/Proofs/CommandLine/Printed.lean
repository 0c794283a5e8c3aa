/-
What is printed of a match loses nothing
(`CommandLine.printed_values_read_back`). The line that is printed is read
back, and of two values of one type no more than one is read back as the
same (`Value.eq_of_readsBackAs`). Decimals are told apart by their written
forms, and floating-point numbers because a decimal has one nearest number.
-/
import Unformat.Proofs.CommandLine.Reply
import Unformat.Proofs.Number.DecimalText

namespace Unformat

-- ============================================== statement vocabulary

/-- Values of one type. -/
def Value.SameType : Value → Value → Prop
  | .str _, .str _ | .bool _, .bool _ | .int _, .int _ | .decimal _, .decimal _
  | .float _, .float _ => True
  | _, _ => False

-- ============================================================= results

namespace Value

/-- Values of one type that are read back as the same are the same. -/
theorem eq_of_readsBackAs {v v' : Value} {j : Json} (htype : v.SameType v')
    (h : v.ReadsBackAs j) (h' : v'.ReadsBackAs j) : v' = v := by
  cases v with
  | float x =>
      cases v' with
      | float x' =>
          obtain ⟨d, rfl, rfl⟩ := h
          obtain ⟨d', hd', rfl⟩ := h'
          rw [Json.decimal.inj hd']
      | _ => exact htype.elim
  | str t =>
      cases v' with
      | str t' => rw [Json.text.inj (h'.symm.trans h)]
      | _ => exact htype.elim
  | bool b =>
      cases v' with
      | bool b' => rw [Json.bool.inj (h'.symm.trans h)]
      | _ => exact htype.elim
  | int n =>
      cases v' with
      | int n' => rw [Json.int.inj (h'.symm.trans h)]
      | _ => exact htype.elim
  | decimal d =>
      cases v' with
      | decimal d' =>
          -- the written form of a decimal is that of no other
          have hwrite : d'.write = d.write :=
            Text.ofChars_injective (Json.text.inj (h'.symm.trans h))
          have hread := d'.readUnbounded?_write
          rw [hwrite, d.readUnbounded?_write] at hread
          rw [Option.some.inj hread]
      | _ => exact htype.elim

theorem not_float_of_sameType {values values' : List Value}
    (htypes : List.Forall₂ SameType values values') (h : ∀ x, Value.float x ∉ values) :
    ∀ x, Value.float x ∉ values' := by
  induction htypes with
  | nil => exact h
  | @cons v v' vs vs' htype _ ih =>
      intro x hx
      rcases List.mem_cons.mp hx with rfl | hx
      · cases v with
        | float y => exact h y List.mem_cons_self
        | _ => exact htype.elim
      · exact ih (fun y hy => h y (List.mem_cons_of_mem v hy)) x hx

theorem eq_of_forall₂_readsBackAs {values values' : List Value} {items : List Json}
    (htypes : List.Forall₂ SameType values values') (h : List.Forall₂ ReadsBackAs values items)
    (h' : List.Forall₂ ReadsBackAs values' items) : values' = values := by
  induction htypes generalizing items with
  | nil => rfl
  | cons htype _ ih =>
      cases h with
      | cons hv hvs =>
          cases h' with
          | cons hv' hvs' => rw [eq_of_readsBackAs htype hv hv', ih hvs hvs']

end Value

theorem isFinite_of_not_float {values : List Value} (h : ∀ x, Value.float x ∉ values) :
    ∀ v ∈ values, v.IsFinite := by
  intro v hv
  cases v with
  | float x => exact absurd hv (h x)
  | _ => trivial

namespace CommandLine

/-- The values that a request prints are read back from the line. -/
theorem MatchRequest.exists_line {read : DocumentReader} {files : Files} {r : MatchRequest}
    {c : Configuration} {values : List Value} (hconfig : r.config read files = .ok c)
    (hmatch : c.Decides r.text (.ok (.matched values))) (verbose : Bool) :
    (r.reply read files verbose).map Reply.stdout =
        .ok (String.ofList (JsonLine.write values ++ ['\n'])) ∧
      ∀ v ∈ values, v.IsWhole := by
  obtain ⟨h, log, hhandler, hreport⟩ := hmatch
  refine ⟨?_, isWhole_of_report hreport⟩
  rw [reply_of_report hconfig hhandler hreport, String.ofList_append]
  rfl

/-- The values of a match that prints no floating-point number stand in
one line of visible characters of ASCII, behind which the output ends. Read
as JSON, the line is an array of the values in order: texts, truth values
and integers as themselves, and decimals as the texts of their written
forms. So what is printed tells values of given types apart. -/
theorem printed_values_read_back {read : DocumentReader} {files : Files} {r : MatchRequest}
    {c : Configuration} {values : List Value} (hconfig : r.config read files = .ok c)
    (hmatch : c.Decides r.text (.ok (.matched values))) (hfloat : ∀ x, Value.float x ∉ values)
    (verbose : Bool) :
    ∃ (line : List Char) (items : List Json),
      (r.reply read files verbose).map Reply.stdout = .ok (String.ofList (line ++ ['\n'])) ∧
      (∀ ch ∈ line, isVisibleAscii ch = true) ∧
      Json.read? line = some (.array items) ∧ List.Forall₂ Value.ReadsBackAs values items ∧
      ∀ (read' : DocumentReader) (files' : Files) (r' : MatchRequest) (c' : Configuration)
        (values' : List Value) (verbose' : Bool), r'.config read' files' = .ok c' →
        c'.Decides r'.text (.ok (.matched values')) → List.Forall₂ Value.SameType values values' →
        (r'.reply read' files' verbose').map Reply.stdout =
          (r.reply read files verbose).map Reply.stdout → values' = values := by
  obtain ⟨hline, hwhole⟩ := MatchRequest.exists_line hconfig hmatch verbose
  obtain ⟨items, hread, hitems⟩ :=
    JsonLine.exists_read?_write hwhole (isFinite_of_not_float hfloat)
  refine ⟨JsonLine.write values, items, hline, fun ch => JsonLine.visible_of_mem_write, hread,
    hitems, ?_⟩
  intro read' files' r' c' values' verbose' hconfig' hmatch' htypes hsame
  obtain ⟨hline', hwhole'⟩ := MatchRequest.exists_line hconfig' hmatch' verbose'
  obtain ⟨items', hread', hitems'⟩ := JsonLine.exists_read?_write hwhole'
    (isFinite_of_not_float (Value.not_float_of_sameType htypes hfloat))
  have hwritten : JsonLine.write values' = JsonLine.write values := by
    rw [hline, hline'] at hsame
    exact List.append_cancel_right (String.ofList_injective (Except.ok.inj hsame))
  rw [hwritten, hread] at hread'
  obtain rfl : items = items' := Json.array.inj (Option.some.inj hread')
  exact Value.eq_of_forall₂_readsBackAs htypes hitems hitems'

/-- A quotation mark, a backslash, a line feed and a character above
U+FFFF are printed as escapes, beside a negative integer. -/
theorem printed_values_read_back_escapes :
    let cs : List Char := ['"', '\\', '\n', '😀']
    let directive := Text.ofChars "%s=%d".toList
    let names := ["str", "int64"].map fun name => Text.ofChars name.toList
    let r : MatchRequest :=
      { text := Text.ofChars (cs ++ "=-7".toList), directive := some directive, shape := names }
    let c : Configuration := ⟨directive, names, {}⟩
    let values : List Value := [.str (Text.ofChars cs), .int (-7)]
    let line := "[\"\\\"\\\\\\n\\ud83d\\ude00\", -7]".toList
    (∀ read, r.config read (fun _ => none) = .ok c) ∧
      c.Decides r.text (.ok (.matched values)) ∧ (∀ x, Value.float x ∉ values) ∧
      ∀ read, (r.reply read (fun _ => none) true).map Reply.stdout =
          .ok (String.ofList (line ++ ['\n'])) ∧
        ∃ items, Json.read? line = some (.array items) ∧
          List.Forall₂ Value.ReadsBackAs values items := by
  intro cs directive names r c values line
  have htokens : Directive.tokens directive =
      .ok [.placeholder .string, .literal ['='], .placeholder .int] :=
    toOption_eq_some_iff.mp (by decide +kernel)
  let p : Pattern := ⟨directive, [.placeholder .string, .literal ['='], .placeholder .int],
    [.str, .int64]⟩
  have hconfig : ∀ read, r.config read (fun _ => none) = .ok c := fun _ => rfl
  have hhandler : c.handler .ignore = .ok ⟨p, c.options, .ignore⟩ :=
    Configuration.handler_of_parts htokens rfl rfl .ignore
  have hreport : p.report c.options r.text = .ok ⟨[], .matched values⟩ := by decide +kernel
  have hmatch : c.Decides r.text (.ok (.matched values)) := ⟨_, _, hhandler, hreport⟩
  have hfloat : ∀ x, Value.float x ∉ values := by simp [values]
  refine ⟨hconfig, hmatch, hfloat, fun read => ?_⟩
  obtain ⟨line', items, hline', -, hread, hitems, -⟩ :=
    printed_values_read_back (hconfig read) hmatch hfloat true
  have hline : line' = line := by
    have hwritten : JsonLine.write values = line := by decide
    have hstdout := (MatchRequest.exists_line (hconfig read) hmatch true).1
    rw [hwritten, hline'] at hstdout
    exact List.append_cancel_right (String.ofList_injective (Except.ok.inj hstdout))
  exact ⟨hline ▸ hline', items, hline ▸ hread, hitems⟩

end CommandLine

end Unformat
