/-
Options and positional arguments of a command. An option has names of a
dash and a letter, and of two dashes and a word. Letters of options
without values may be run together; a value may follow a letter at once,
or a word behind an equals sign, or be the next argument. Two dashes
alone end the options, and for some commands so does the first argument
that is no option.
-/
import Unformat.CommandLine.Suggestion
import Unformat.CommandLine.Usage

namespace Unformat.CommandLine

/-- An option: its letters, its words with their dashes, and whether it
has a value. -/
structure OptionSpec (α : Type) where
  id : α
  letters : List Char
  words : List (List Char)
  hasValue : Bool

/-- Options in the order in which they are given, each with its value,
empty if it has none, and the other arguments. -/
structure Arguments (α : Type) where
  options : List (α × Text) := []
  positional : List Text := []

namespace Arguments

variable {α : Type}

/-- The arguments with one more option in front. -/
def consOption (id : α) (value : Text) (a : Arguments α) : Arguments α :=
  ⟨(id, value) :: a.options, a.positional⟩

/-- The arguments with one more positional argument in front. -/
def consPositional (arg : Text) (a : Arguments α) : Arguments α :=
  ⟨a.options, arg :: a.positional⟩

/-- The values given to an option, in order. -/
def values [DecidableEq α] (a : Arguments α) (id : α) : List Text :=
  (a.options.filter fun o => o.1 = id).map Prod.snd

/-- Whether an option is given. -/
def has [DecidableEq α] (a : Arguments α) (id : α) : Bool :=
  a.options.any fun o => o.1 = id

end Arguments

-- ====================================================== single options

/-- What one argument says: options with their values, and perhaps one
more, under this name, whose value is the next argument. -/
structure Given (α : Type) where
  options : List (α × Text) := []
  awaiting : Option (α × Text) := none

variable {α : Type}

/-- Options by their letters, run together. -/
def readLetters (specs : List (OptionSpec α)) : Text → Except Misuse (Given α)
  | [] => .ok {}
  | p :: ps =>
      let name : Text := [.char '-', p]
      match specs.find? fun s => p.char?.any s.letters.contains with
      | none => .error (.noOption name [])
      | some s =>
          if s.hasValue then
            match ps with
            | [] => .ok { awaiting := some (s.id, name) }
            | value => .ok { options := [(s.id, value)] }
          else
            (readLetters specs ps).map fun g => { g with options := (s.id, []) :: g.options }

/-- The option of a word and the value behind an equals sign, if it has
one; none if no option has this word. -/
def readWord? (specs : List (OptionSpec α)) (word : Text) (value : Option Text) :
    Option (Except Misuse (Given α)) :=
  (specs.find? fun s => word.chars?.any s.words.contains).map fun s =>
    match s.hasValue, value with
    | true, some v => .ok { options := [(s.id, v)] }
    | true, none => .ok { awaiting := some (s.id, word) }
    | false, some _ => .error (.unwantedValue word)
    | false, none => .ok { options := [(s.id, [])] }

/-- An argument up to its first equals sign, and what is behind it. -/
def splitValue (arg : Text) : Text × Option Text :=
  match arg.dropWhile (· ≠ .char '=') with
  | [] => (arg, none)
  | _ :: value => (arg.takeWhile (· ≠ .char '='), some value)

/-- What an argument that starts with a dash says: it is taken for a
word first, and then for letters unless it starts with two dashes. -/
def readOption (specs : List (OptionSpec α)) (arg : Text) : Except Misuse (Given α) :=
  let (word, value) := splitValue arg
  match readWord? specs word value with
  | some r => r
  | none =>
      match arg with
      | .char '-' :: .char '-' :: _ =>
          .error (.noOption word (closeTo word (specs.flatMap OptionSpec.words)))
      | _ => readLetters specs (arg.drop 1)

/-- Whether an argument is an option. -/
def isOption : Text → Bool
  | .char '-' :: _ :: _ => true
  | _ => false

-- ======================================================= all arguments

/-- Reads the arguments of a command; `mixed` says whether options may
stand behind other arguments. -/
def readArguments (specs : List (OptionSpec α)) (mixed : Bool) :
    List Text → Except Misuse (Arguments α)
  | [] => .ok {}
  | arg :: rest =>
      if arg = [.char '-', .char '-'] then .ok { positional := rest }
      else if isOption arg then
        match readOption specs arg with
        | .error e => .error e
        | .ok given =>
            let withGiven (a : Arguments α) : Arguments α :=
              { a with options := given.options ++ a.options }
            match given.awaiting, rest with
            | none, rest => (readArguments specs mixed rest).map withGiven
            | some (id, _), value :: rest =>
                (readArguments specs mixed rest).map fun a => withGiven (a.consOption id value)
            | some (_, name), [] => .error (.noValue name)
      else if mixed then (readArguments specs mixed rest).map (Arguments.consPositional arg)
      else .ok { positional := arg :: rest }

end Unformat.CommandLine
