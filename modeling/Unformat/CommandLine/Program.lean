/-
The program: one command lists the tokens of a directive, the other
matches a text and writes the values. A run answers with an exit code
and what it writes: 0 and the result, 1 and the reason if the text does
not match, 2 and an error if the command line, a configuration or a
pattern is refused. Verbose runs also write what is told on the way.

Not every fault is a refusal. Some end a run without an answer of its
own (`Crash`): a directive that cannot be encoded is the one that
arguments can bring about, for they may be any texts.
-/
import Unformat.CommandLine.Arguments
import Unformat.Configuration.File
import Unformat.Handler
import Unformat.JsonLine

namespace Unformat.CommandLine

/-- What stands at a path. A file whose bytes are no text has no
contents. -/
inductive FileEntry where
  | directory
  | file (contents : Option (List Char))

/-- The files that a run can read. -/
abbrev Files := Text → Option FileEntry

/-- The answer of a run. -/
structure Reply where
  exitCode : Nat
  stdout : String
  stderr : String
deriving DecidableEq

namespace Reply

/-- The answer to a misuse. -/
def misuse (e : Misuse) : Reply :=
  ⟨2, "", s!"Error: {e.message}\n"⟩

/-- The answer with a short help. -/
def help (text : String) : Reply :=
  ⟨0, text ++ "\n", ""⟩

end Reply

-- ============================================================= crashes

/-- What ends a run without an answer: a directive or a file is in no
encoding, a document cannot be refused, or a number is too large. -/
inductive Crash where
  | encoding (fault : EncodingFault)
  | decoding (path : Text)
  | config (fault : ConfigurationFault)
  | overflow (o : Overflow)

/-- What is known about a crash. -/
def Crash.message : Crash → String
  | .encoding fault => fault.message
  | .decoding path => s!"File {path.quoted} is no text."
  | .config fault => fault.message
  | .overflow o => o.message

/-- Why a run does not come to a match: a misuse, which has an answer, or
a crash. -/
inductive Stop where
  | misuse (e : Misuse)
  | crash (e : Crash)

/-- How a run stops that cannot go on without a configuration. -/
def Stop.ofConfig (fault : ConfigurationFault) : Stop :=
  if fault.isRefusal then .misuse (.config fault) else .crash (.config fault)

/-- How a run stops that cannot go on without a pattern. -/
def Stop.ofPattern : PatternFault → Stop
  | .encoding fault => .crash (.encoding fault)
  | .shape fault => .misuse (.shape fault)

-- =========================================================== tokenize

/-- The line that lists a token. -/
def tokenLine : Token → String
  | .literal text => s!"literal     {quote text}\n"
  | .placeholder kind => s!"placeholder {kind.name}\n"

/-- The lines that list tokens. -/
def listing (tokens : List Token) : String :=
  String.join (tokens.map tokenLine)

-- ============================================================== match

/-- What the command that matches is asked to do. A configuration in a
file replaces the directive, the names of the shape and the flags. -/
structure MatchRequest where
  text : Text
  directive : Option Text := none
  shape : List Text := []
  configPath : Option Text := none
  lenient : Bool := false
  hexMode : HexReading := .legacy
  checked : Bool := false

/-- How messages name the option for the configuration. -/
def configOption : String := "'-c' / '--config'"

/-- How messages name the option for base sixteen. -/
def hexModeOption : String := "'--hex-mode'"

/-- The file at a path, or a misuse if there is none. -/
def fileAt (files : Files) (path : Text) : Except Misuse (Option (List Char)) :=
  match files path with
  | none => .error (.noFile configOption path)
  | some .directory => .error (.directory configOption path)
  | some (.file contents) => .ok contents

/-- The contents of the file at a path. -/
def readFile (files : Files) (path : Text) : Except Stop (List Char) :=
  match fileAt files path with
  | .error e => .error (.misuse e)
  | .ok none => .error (.crash (.decoding path))
  | .ok (some contents) => .ok contents

namespace MatchRequest

/-- The options that the flags ask for. -/
def options (r : MatchRequest) : Settings where
  policy := if r.lenient then .lenient else .strict
  hexMode := r.hexMode
  narrowing := if r.checked then .checked else .wrap

/-- The configuration to match with. -/
def config (read : DocumentReader) (files : Files) (r : MatchRequest) :
    Except Stop Configuration :=
  match r.configPath, r.directive with
  | some path, _ => do
      let contents ← readFile files path
      (Configuration.ofFile read contents).mapError .ofConfig
  | none, some directive => .ok ⟨directive, r.shape, r.options⟩
  | none, none => .error (.misuse .noSource)

/-- The handler to match with. What a match finds is only written, so
nothing is called back. -/
def handler (read : DocumentReader) (files : Files) (r : MatchRequest) : Except Stop Handler := do
  let c ← r.config read files
  (c.handler .ignore).mapError .ofPattern

/-- What a verbose run tells about the match. -/
def told (verbose : Bool) (events : List Event) : String :=
  if verbose then String.join (events.map fun e => s!"urlformat: {e.message}\n") else ""

/-- What a verbose run tells about the values. -/
def toldCount (verbose : Bool) (t : Text) (count : Nat) : String :=
  if verbose then s!"urlformat.cli: matched {t.quoted} with {count} value(s)\n" else ""

/-- The answer for a report. -/
def answer (verbose : Bool) (t : Text) (report : Report) : Reply :=
  match report.outcome with
  | .mismatch cause =>
      ⟨1, "",
        told verbose report.log ++ s!"no match: {cause.reason.name}: {cause.detail}\n"⟩
  | .matched values =>
      ⟨0, String.ofList (JsonLine.write values) ++ "\n",
        told verbose report.log ++ toldCount verbose t values.length⟩

/-- Matches the text with a handler. -/
def matchWith (verbose : Bool) (t : Text) (h : Handler) : Except Crash Reply :=
  match h.report t with
  | .error o => .error (.overflow o)
  | .ok report => .ok (answer verbose t report)

/-- Does what is asked. -/
def reply (read : DocumentReader) (files : Files) (verbose : Bool) (r : MatchRequest) :
    Except Crash Reply :=
  match r.handler read files with
  | .error (.misuse e) => .ok (.misuse e)
  | .error (.crash e) => .error e
  | .ok h => matchWith verbose r.text h

end MatchRequest

-- ======================================================= command lines

/-- The options in front of a command. -/
inductive ProgramOption where
  | verbose
  | help
deriving DecidableEq

/-- The options of the command that lists tokens. -/
inductive TokenizeOption where
  | help
deriving DecidableEq

/-- The options of the command that matches. -/
inductive MatchOption where
  | directive
  | type
  | config
  | lenient
  | hexMode
  | checked
  | help
deriving DecidableEq

/-- The names of the options in front of a command. -/
def programSpecs : List (OptionSpec ProgramOption) :=
  [⟨.verbose, ['v'], ["--verbose".toList], false⟩, ⟨.help, [], ["--help".toList], false⟩]

/-- The names of the options of the command that lists tokens. -/
def tokenizeSpecs : List (OptionSpec TokenizeOption) :=
  [⟨.help, [], ["--help".toList], false⟩]

/-- The names of the options of the command that matches. -/
def matchSpecs : List (OptionSpec MatchOption) :=
  [⟨.directive, ['d'], ["--directive".toList], true⟩,
   ⟨.type, ['t'], ["--type".toList], true⟩,
   ⟨.config, ['c'], ["--config".toList], true⟩,
   ⟨.lenient, [], ["--lenient".toList], false⟩,
   ⟨.hexMode, [], ["--hex-mode".toList], true⟩,
   ⟨.checked, [], ["--checked".toList], false⟩,
   ⟨.help, [], ["--help".toList], false⟩]

/-- The one argument of a command, and no more than that. -/
def onlyArgument (name : String) : List Text → Except Misuse Text
  | [] => .error (.noArgument name)
  | [arg] => .ok arg
  | _ :: extra => .error (.extraArguments extra)

/-- The way to read base sixteen that is asked for. -/
def hexModeOf (given : Text) : Except Misuse HexReading :=
  match HexReading.all.find? fun m => Text.ofChars m.name.toList == given with
  | some m => .ok m
  | none => .error (.notAChoice hexModeOption given (HexReading.all.map HexReading.name))

/-- Checks the values of the options, each option where it is given
first; of the values of one option the last counts. -/
def checkOptions (files : Files) (a : Arguments MatchOption) : Except Misuse Unit :=
  a.options.forM fun o =>
    match o.1, (a.values o.1).getLast? with
    | .hexMode, some given => discard (hexModeOf given)
    | .config, some path => discard (fileAt files path)
    | _, _ => .ok ()

/-- The request of the arguments of the command that matches. -/
def matchRequest (files : Files) (a : Arguments MatchOption) : Except Misuse MatchRequest := do
  checkOptions files a
  let text ← onlyArgument "TEXT" a.positional
  let hexMode ← match (a.values .hexMode).getLast? with
    | some given => hexModeOf given
    | none => .ok .legacy
  return {
    text
    directive := (a.values .directive).getLast?
    shape := a.values .type
    configPath := (a.values .config).getLast?
    lenient := a.has .lenient
    hexMode
    checked := a.has .checked }

/-- Runs the command that lists tokens. -/
def runTokenize (args : List Text) : Except Crash Reply :=
  match readArguments tokenizeSpecs true args with
  | .error e => .ok (.misuse e)
  | .ok a =>
      if a.has .help then .ok (.help "tokenize DIRECTIVE")
      else
        match onlyArgument "DIRECTIVE" a.positional with
        | .error e => .ok (.misuse e)
        | .ok directive =>
            ((Directive.tokens directive).mapError .encoding).map fun tokens =>
              ⟨0, listing tokens, ""⟩

/-- Runs the command that matches. -/
def runMatch (read : DocumentReader) (files : Files) (verbose : Bool) (args : List Text) :
    Except Crash Reply :=
  match readArguments matchSpecs true args with
  | .error e => .ok (.misuse e)
  | .ok a =>
      if a.has .help then .ok (.help "match [OPTIONS] TEXT")
      else
        match matchRequest files a with
        | .error e => .ok (.misuse e)
        | .ok r => r.reply read files verbose

/-- The names of the commands. -/
def commands : List (List Char) :=
  ["tokenize".toList, "match".toList]

/-- The short help of the program. -/
def programHelp : Reply :=
  .help "[OPTIONS] COMMAND [ARGS]..."

/-- Runs the command of a name. A name that starts with a dash is read as
an option once more. -/
def runCommand (read : DocumentReader) (files : Files) (verbose : Bool) (name : Text)
    (args : List Text) : Except Crash Reply :=
  if name = .ofChars "tokenize".toList then runTokenize args
  else if name = .ofChars "match".toList then runMatch read files verbose args
  else
    match readArguments programSpecs false (name :: args) with
    | .error e => .ok (.misuse e)
    | .ok a =>
        if a.has .help then .ok programHelp
        else .ok (.misuse (.unknownCommand name (closeTo name commands)))

/-- Runs the program with these arguments. -/
def run (read : DocumentReader) (files : Files) (args : List Text) : Except Crash Reply :=
  match readArguments programSpecs false args with
  | .error e => .ok (.misuse e)
  | .ok a =>
      if a.has .help then .ok programHelp
      else
        match a.positional with
        | name :: rest => runCommand read files (a.has .verbose) name rest
        | [] => if args = [] then .ok ⟨2, "", ""⟩ else .ok (.misuse .noCommand)

/-- The path of the configuration that the arguments name, if they name
one. -/
def configPath? (args : List Text) : Option Text :=
  match readArguments programSpecs false args with
  | .ok ⟨_, _ :: rest⟩ =>
      match readArguments matchSpecs true rest with
      | .ok a => (a.values .config).getLast?
      | .error _ => none
  | _ => none

end Unformat.CommandLine
