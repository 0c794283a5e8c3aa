/-
The listing of a directive's tokens is a line for each token, and the lines
read back as the tokens (`CommandLine.token_listing_read_back`).

A line is a label and what the token holds: a literal between quotation
marks, which holds no line break whatever the literal holds, or the name of
a kind. So the line breaks of a listing are those behind its lines, and
cutting it at them gives the lines.
-/
import Unformat.CommandLine.Program
import Unformat.Proofs.Directive.Offsets
import Unformat.Proofs.Text.Quoted

namespace Unformat.CommandLine

-- ============================================== statement vocabulary

/-- Control characters, and the separators of lines and paragraphs. -/
def breaksLines (c : Char) : Bool :=
  c.toNat < 0x20 || (0x7F ≤ c.toNat && c.toNat < 0xA0) || c.toNat = 0x2028 || c.toNat = 0x2029

/-- Arguments of the command that lists tokens that ask for those of a
directive. -/
def AsksForTokens (args : List Text) (directive : Text) : Prop :=
  readArguments tokenizeSpecs true args = .ok ⟨[], [directive]⟩

/-- Lines one after the other, each with a line feed behind it. -/
def ended (lines : List (List Char)) : List Char :=
  lines.flatMap (· ++ ['\n'])

/-- What stands in front of a literal. -/
def literalLabel : List Char := "literal     ".toList

/-- What stands in front of a placeholder. -/
def placeholderLabel : List Char := "placeholder ".toList

/-- The token that a line lists. -/
def readTokenLine? (line : List Char) : Option Token :=
  if literalLabel.isPrefixOf line then
    match Quoted.read? (line.drop literalLabel.length) with
    | some (t, []) => t.chars?.map .literal
    | _ => none
  else if placeholderLabel.isPrefixOf line then
    (Kind.all.find? fun kind => kind.name.toList = line.drop placeholderLabel.length).map
      .placeholder
  else none

-- =============================================================== lines

/-- The line of a token, without its end. -/
def tokenText : Token → List Char
  | .literal text => literalLabel ++ Quoted.write (Text.ofChars text)
  | .placeholder kind => placeholderLabel ++ kind.name.toList

theorem toList_tokenLine (token : Token) :
    (tokenLine token).toList = tokenText token ++ ['\n'] := by
  cases token with
  | literal text =>
      have hquote : (quote text).toList = Quoted.write (Text.ofChars text) := String.toList_ofList
      show ("literal     " ++ quote text ++ "\n").toList = _
      rw [String.toList_append, String.toList_append, hquote]
      rfl
  | placeholder kind =>
      show ("placeholder " ++ kind.name ++ "\n").toList = _
      rw [String.toList_append, String.toList_append]
      rfl

theorem listing_eq (tokens : List Token) :
    listing tokens = String.ofList (ended (tokens.map tokenText)) := by
  apply String.toList_injective
  rw [listing, String.toList_join, String.toList_ofList, ended, List.flatMap_map,
    List.flatMap_map]
  simp only [toList_tokenLine]

/-- A token is read as it is listed. -/
theorem readTokenLine?_tokenText (token : Token) :
    readTokenLine? (tokenText token) = some token := by
  cases token with
  | literal text =>
      have hlabel : literalLabel.isPrefixOf (tokenText (.literal text)) = true :=
        List.isPrefixOf_iff_prefix.mpr (List.prefix_append _ _)
      have hread := Quoted.read?_write (Text.ofChars text) []
      rw [List.append_nil] at hread
      rw [readTokenLine?, if_pos hlabel, tokenText, List.drop_left, hread]
      simp
  | placeholder kind =>
      cases kind <;> rfl

-- ========================================================== characters

/-- What can be shown breaks no line. -/
theorem not_breaksLines {c : Char} (h : (CodePoint.char c).isPrintable = true) :
    breaksLines c = false := by
  have hcontrol : ∀ n < 0xA0, n < 0x20 ∨ 0x7F ≤ n → inRanges unprintableRanges n = true := by
    decide +kernel
  have hseparator : inRanges unprintableRanges 0x2028 = true ∧
      inRanges unprintableRanges 0x2029 = true := by
    decide +kernel
  have hshown : inRanges unprintableRanges c.toNat = false := by
    simpa [CodePoint.isPrintable, CodePoint.value] using h
  cases hbreaks : breaksLines c with
  | false => rfl
  | true =>
      simp only [breaksLines, Bool.or_eq_true, Bool.and_eq_true, decide_eq_true_eq] at hbreaks
      have hranges : inRanges unprintableRanges c.toNat = true := by
        rcases hbreaks with ((hlow | hhigh) | hline) | hparagraph
        · exact hcontrol c.toNat (Nat.lt_trans hlow (by decide)) (.inl hlow)
        · exact hcontrol c.toNat hhigh.2 (.inr hhigh.1)
        · exact hline ▸ hseparator.1
        · exact hparagraph ▸ hseparator.2
      exact absurd (hshown.symm.trans hranges) Bool.false_ne_true

theorem not_breaksLines_of_mem_tokenText {token : Token} {c : Char} (h : c ∈ tokenText token) :
    breaksLines c = false := by
  cases token with
  | literal text =>
      rcases List.mem_append.mp h with h | h
      · have hlabel : literalLabel.all (fun c => !breaksLines c) = true := by decide
        simpa using List.all_eq_true.mp hlabel c h
      · exact not_breaksLines (Quoted.isPrintable_of_mem_write h)
  | placeholder kind =>
      have hline : (tokenText (.placeholder kind)).all (fun c => !breaksLines c) = true := by
        cases kind <;> decide
      simpa using List.all_eq_true.mp hline c h

-- ============================================================= listings

/-- Lines without line feeds are what is between the line feeds. -/
theorem splitOn_lines {lines : List (List Char)} (h : ∀ line ∈ lines, '\n' ∉ line) :
    (ended lines).splitOn '\n' = lines ++ [[]] := by
  unfold ended
  induction lines with
  | nil => rfl
  | cons line lines ih =>
      obtain ⟨hline, hlines⟩ := List.forall_mem_cons.mp h
      have hother : ∀ c ∈ line, (c == '\n') = false := fun c hc =>
        beq_eq_false_iff_ne.mpr fun hnewline => hline (hnewline ▸ hc)
      have hsplit := List.splitOnP_append_cons_of_forall_mem hother '\n' rfl
        (lines.flatMap (· ++ ['\n']))
      rw [List.flatMap_cons, List.append_assoc, List.singleton_append, List.splitOn, hsplit]
      exact congrArg (line :: ·) (ih hlines)

theorem mapM_readTokenLine? (tokens : List Token) :
    (tokens.map tokenText).mapM readTokenLine? = some tokens := by
  induction tokens with
  | nil => rfl
  | cons token tokens ih =>
      rw [List.map_cons, List.mapM_cons, readTokenLine?_tokenText, ih]
      rfl

/-- The option behind which every argument stands for itself. -/
def dashes : Text := [.char '-', .char '-']

/-- Two dashes in front make any directive an argument. -/
theorem asksForTokens_dashes (directive : Text) :
    AsksForTokens [dashes, directive] directive := rfl

/-- A directive that is no option can stand alone. -/
theorem asksForTokens_alone {directive : Text} (h : isOption directive = false) :
    AsksForTokens [directive] directive := by
  have hdashes : directive ≠ [.char '-', .char '-'] := by
    rintro rfl
    cases h
  unfold AsksForTokens
  rw [readArguments, if_neg hdashes, if_neg (by simp [h]), if_pos rfl]
  rfl

/-- The name of the command that lists tokens. -/
def tokenizeName : Text := .ofChars "tokenize".toList

theorem run_tokenize {args : List Text} {directive : Text} {tokens : List Token}
    (h : AsksForTokens args directive) (htokens : Directive.tokens directive = .ok tokens)
    (read : DocumentReader) (files : Files) :
    run read files (tokenizeName :: args) = .ok ⟨0, listing tokens, ""⟩ := by
  have hrun : run read files (tokenizeName :: args) = runTokenize args := rfl
  unfold AsksForTokens at h
  rw [hrun, runTokenize, h]
  show ((Directive.tokens directive).mapError _).map _ = _
  rw [htokens]
  rfl

/-- A directive made of characters has tokens. Their listing has as many
lines as there are tokens, each with its end and none with another
character that breaks lines, and the lines read back as the tokens. So two
directives are listed alike just if their tokens are the same. -/
theorem token_listing_read_back (directive : List Char) :
    ∃ (tokens : List Token) (lines : List (List Char)),
      Directive.tokens (.ofChars directive) = .ok tokens ∧
      AsksForTokens [dashes, .ofChars directive] (.ofChars directive) ∧
      (isOption (.ofChars directive) = false →
        AsksForTokens [.ofChars directive] (.ofChars directive)) ∧
      (∀ read files args, AsksForTokens args (.ofChars directive) →
        run read files (tokenizeName :: args) = .ok ⟨0, String.ofList (ended lines), ""⟩) ∧
      (ended lines).splitOn '\n' = lines ++ [[]] ∧
      lines.length = tokens.length ∧
      (∀ line ∈ lines, ∀ c ∈ line, breaksLines c = false) ∧
      lines.mapM readTokenLine? = some tokens ∧
      ∀ read files args other args', AsksForTokens args (.ofChars directive) →
        AsksForTokens args' (.ofChars other) →
        ((run read files (tokenizeName :: args')).map Reply.stdout =
            (run read files (tokenizeName :: args)).map Reply.stdout ↔
          Directive.tokens (.ofChars other) = .ok tokens) := by
  have hunbroken : ∀ tokens : List Token, ∀ line ∈ tokens.map tokenText, ∀ c ∈ line,
      breaksLines c = false := by
    intro tokens line hline c hc
    obtain ⟨token, -, rfl⟩ := List.mem_map.mp hline
    exact not_breaksLines_of_mem_tokenText hc
  have hsplit : ∀ tokens : List Token,
      (ended (tokens.map tokenText)).splitOn '\n' = tokens.map tokenText ++ [[]] := fun tokens =>
    splitOn_lines fun line hline hmem =>
      Bool.false_ne_true ((hunbroken tokens line hline '\n' hmem).symm.trans rfl)
  obtain ⟨tokens, htokens⟩ := Directive.exists_tokens_ofChars directive
  refine ⟨tokens, tokens.map tokenText, htokens, asksForTokens_dashes _, asksForTokens_alone,
    fun read files args hargs => ?_, hsplit _, List.length_map _, hunbroken _,
    mapM_readTokenLine? _, ?_⟩
  · rw [run_tokenize hargs htokens, listing_eq]
  · intro read files args other args' hargs hargs'
    obtain ⟨tokens', htokens'⟩ := Directive.exists_tokens_ofChars other
    rw [run_tokenize hargs htokens, run_tokenize hargs' htokens', htokens']
    constructor
    · intro hsame
      have hlisting : listing tokens' = listing tokens := Except.ok.inj hsame
      rw [listing_eq, listing_eq] at hlisting
      -- the lines are those between the line feeds, and each gives its token
      have hlines := congrArg (List.splitOn '\n') (String.ofList_injective hlisting)
      rw [hsplit, hsplit] at hlines
      have hread := congrArg (List.mapM readTokenLine?) (List.append_cancel_right hlines)
      rw [mapM_readTokenLine?, mapM_readTokenLine?] at hread
      rw [Option.some.inj hread]
    · intro hsame
      rw [Except.ok.inj hsame]

/-- An apostrophe changes the mark, and a line feed is written as a
letter. -/
example :
    (runTokenize [.ofChars "it's\n%X".toList]).toOption =
      some ⟨0, "literal     \"it's\\n\"\nplaceholder hex\n", ""⟩ := by
  decide +kernel

end Unformat.CommandLine
