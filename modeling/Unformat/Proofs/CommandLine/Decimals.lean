/-
Decimals on the command line. What is printed of a decimal is its written
form between quotation marks, since none of its characters needs an
escape (`JsonLine.value_decimal`), and matching that form again gives the
decimal that was printed (`decimal_reprinted`): not only the number, but
the sign of a zero and the zeros behind the last digit as well. So two
decimals that are read are told apart by what is printed of them.
-/
import Unformat.Proofs.CommandLine.Reply
import Unformat.Proofs.Number.DecimalText

namespace Unformat

-- ============================================== statement vocabulary

/-- The request to match a text as a decimal. -/
def CommandLine.decimalRequest (options : Settings) (cs : List Char) : MatchRequest where
  text := Text.ofChars cs
  directive := some (Text.ofChars "%f".toList)
  shape := [Text.ofChars "decimal".toList]
  lenient := options.policy = .lenient
  hexMode := options.hexMode
  checked := options.narrowing = .checked

-- ============================================================ printing

namespace JsonLine

/-- Characters that need no escape stand for themselves. -/
theorem text_ofChars_of_plain {cs : List Char} (h : ∀ c ∈ cs, escape (.char c) = [c]) :
    text (Text.ofChars cs) = '"' :: cs ++ ['"'] := by
  have hescape : (Text.ofChars cs).flatMap escape = cs := by
    induction cs with
    | nil => rfl
    | cons c cs ih =>
        obtain ⟨hc, hcs⟩ := List.forall_mem_cons.mp h
        show escape (.char c) ++ (Text.ofChars cs).flatMap escape = c :: cs
        rw [hc, ih hcs]
        rfl
  rw [text, hescape]

/-- The written form of a decimal needs no escape. -/
theorem value_decimal (d : Decimal) : value (.decimal d) = '"' :: d.write ++ ['"'] := by
  apply text_ofChars_of_plain
  obtain ⟨m, hspells, -⟩ := d.exists_spellsNumeral_write
  intro c hc
  rcases hspells.characters c hc with hdigit | hmark
  · have hplain : c.isDigit = true → escape (.char c) = [c] :=
      forall_ascii c (toNat_lt_of_isDigit hdigit) (by decide)
    exact hplain hdigit
  · have hplain : ∀ c ∈ ['+', '-', '.', 'e', 'E'], escape (.char c) = [c] := by simp [escape]
    exact hplain c hmark

end JsonLine

-- ============================================================ matching

/-- A pattern of nothing but a placeholder for a decimal matches what is
read as one. -/
theorem Pattern.report_decimal {p : Pattern} (htokens : p.tokens = [.placeholder .decimal])
    (hshape : p.shape = [.decimal]) {cs : List Char} {d : Decimal} (h : Decimal.read? cs = some d)
    (options : Settings) :
    p.report options (Text.ofChars cs) = .ok ⟨[], .matched [.decimal d]⟩ := by
  have hkinds : p.kinds = [.decimal] := by
    rw [Pattern.kinds, htokens]
    rfl
  have hpieces : (Text.ofChars cs).pieces p.tokens = .ok [cs] := by
    rw [Text.pieces_ofChars, htokens]
    rfl
  have hread : readPiece options 0 cs .decimal .decimal = .ok (.ok (.decimal d)) := by
    simp [readPiece, Kind.read?, h, Value.fit]
  refine report_eq_matched_iff.mpr ⟨[cs], hpieces, by rw [hkinds, hshape]; rfl, ?_⟩
  rw [hkinds, hshape]
  exact readPieces_of_value rfl hread

/-- The directive of a decimal and the name of its type make the handler
of such a pattern. -/
theorem Configuration.handler_decimal (options : Settings) :
    (⟨Text.ofChars "%f".toList, [Text.ofChars "decimal".toList], options⟩ :
        Configuration).handler .ignore =
      .ok ⟨⟨Text.ofChars "%f".toList, [.placeholder .decimal], [.decimal]⟩, options, .ignore⟩ := by
  have htokens : Directive.tokens (Text.ofChars "%f".toList) = .ok [.placeholder .decimal] :=
    toOption_eq_some_iff.mp (by decide +kernel)
  exact handler_of_parts htokens rfl rfl .ignore

namespace CommandLine

/-- A text that is read as a decimal is answered with the written form of
the decimal. -/
theorem reply_decimalRequest {cs : List Char} {d : Decimal} (h : Decimal.read? cs = some d)
    (options : Settings) (read : DocumentReader) (files : Files) :
    (decimalRequest options cs).reply read files false =
      .ok ⟨0, "[\"" ++ String.ofList d.write ++ "\"]\n", ""⟩ := by
  let c : Configuration := ⟨Text.ofChars "%f".toList, [Text.ofChars "decimal".toList],
    (decimalRequest options cs).options⟩
  have hconfig : (decimalRequest options cs).config read files = .ok c := rfl
  have hreport := Pattern.report_decimal
    (p := ⟨Text.ofChars "%f".toList, [.placeholder .decimal], [.decimal]⟩) rfl rfl h c.options
  have hline : String.ofList (JsonLine.write [.decimal d]) ++ "\n" =
      "[\"" ++ String.ofList d.write ++ "\"]\n" := by
    apply String.toList_injective
    simp [JsonLine.write, JsonLine.elements, JsonLine.value_decimal]
  rw [MatchRequest.reply_of_report hconfig (Configuration.handler_decimal c.options) hreport,
    ← hline]
  rfl

end CommandLine

/-- A decimal that was read is written so that it is read again with the
same sign, coefficient and exponent. So no two of them are written alike,
and what the command that matches prints for a text that is read as a
decimal, it prints once more if it is given what it has printed. -/
theorem decimal_reprinted {cs : List Char} {d : Decimal} (h : Decimal.read? cs = some d) :
    Decimal.read? d.write = some d ∧
    (∀ ds e, Decimal.read? ds = some e → e.write = d.write → e = d) ∧
    (∀ options, Pattern.report
      ⟨Text.ofChars "%f".toList, [.placeholder .decimal], [.decimal]⟩ options
      (Text.ofChars d.write) = .ok ⟨[], .matched [.decimal d]⟩) ∧
    ∀ options read files,
      let printed : CommandLine.Reply := ⟨0, "[\"" ++ String.ofList d.write ++ "\"]\n", ""⟩
      (CommandLine.decimalRequest options cs).reply read files false = .ok printed ∧
        (CommandLine.decimalRequest options d.write).reply read files false = .ok printed := by
  have hreread : Decimal.read? d.write = some d :=
    Decimal.read?_write (Decimal.withinLimits_of_read? h)
  refine ⟨hreread, fun ds e hds hwrite => ?_, fun options => ?_, fun options read files => ⟨?_, ?_⟩⟩
  · have hreread' := Decimal.read?_write (Decimal.withinLimits_of_read? hds)
    rw [hwrite, hreread] at hreread'
    exact (Option.some.inj hreread').symm
  · exact Pattern.report_decimal rfl rfl hreread options
  · exact CommandLine.reply_decimalRequest h options read files
  · exact CommandLine.reply_decimalRequest hreread options read files

/-- A zero with a sign, places and an exponent is written with an exponent
that makes up for the places, and no longer with them. -/
theorem decimal_reprinted_signed_zero :
    Decimal.read? "-00.0E+3".toList = some ⟨true, 0, 2⟩ ∧
      Decimal.write ⟨true, 0, 2⟩ = "-0E+2".toList ∧
      Decimal.read? "-0E+2".toList = some ⟨true, 0, 2⟩ := by
  have h : Decimal.read? "-00.0E+3".toList = some ⟨true, 0, 2⟩ := by decide
  have hwrite : Decimal.write ⟨true, 0, 2⟩ = "-0E+2".toList := by decide
  exact ⟨h, hwrite, hwrite ▸ (decimal_reprinted h).1⟩

end Unformat
