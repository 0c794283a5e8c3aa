/-
How a command line is misused, and the texts that say so.
-/
import Unformat.CommandLine.Styling
import Unformat.Configuration.Basic

namespace Unformat.CommandLine

/-- How a command line is misused. -/
inductive Misuse where
  | noOption (name : Text) (close : List (List Char))
  | noValue (name : Text)
  | unwantedValue (name : Text)
  | noCommand
  | unknownCommand (name : Text) (close : List (List Char))
  | noArgument (name : String)
  | extraArguments (args : List Text)
  | notAChoice (option : String) (given : Text) (choices : List String)
  | noFile (option : String) (path : Text)
  | directory (option : String) (path : Text)
  | noSource
  | config (e : ConfigurationFault)
  | shape (e : ShapeFault)

/-- A hint at close names, behind a sentence. -/
def hint (close : List (List Char)) : String :=
  match close with
  | [] => ""
  | [name] => s!" Did you mean {quote name}?"
  | names =>
      let list := ", ".intercalate ((names.mergeSort fun a b => !decide (b < a)).map quote)
      s!" (Did you mean one of: {list}?)"

/-- The text of a misuse. -/
def Misuse.message : Misuse → String
  | .noOption name close => s!"No such option {name.quoted}." ++ hint close
  | .noValue name => s!"Option {name.quoted} requires an argument."
  | .unwantedValue name => s!"Option {name.quoted} does not take a value."
  | .noCommand => "Missing command."
  | .unknownCommand name close => s!"No such command {name.quoted}." ++ hint close
  | .noArgument name => s!"Missing argument '{name}'."
  | .extraArguments args =>
      let list := written (withoutStyling ((Text.ofChars [' ']).intercalate args))
      if args.length = 1 then s!"Got unexpected extra argument ({list})"
      else s!"Got unexpected extra arguments ({list})"
  | .notAChoice option given choices =>
      let list := ", ".intercalate (choices.map fun c => quote c.toList)
      s!"Invalid value for {option}: {given.quoted} is not one of {list}."
  | .noFile option path => s!"Invalid value for {option}: File {path.quoted} does not exist."
  | .directory option path => s!"Invalid value for {option}: File {path.quoted} is a directory."
  | .noSource => "one of --directive or --config is required"
  | .config e => e.message
  | .shape e => e.message

end Unformat.CommandLine
