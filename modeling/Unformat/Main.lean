/-
The program as a process: it reads the one file that its arguments name,
runs, and writes the answer, or why there is none.
-/
import Unformat.CommandLine.Program
import Unformat.Yaml.Document

namespace Unformat.CommandLine

/-- What stands at a path on disk. A file whose bytes are no text is there
all the same. -/
def entryAt (path : String) : IO (Option FileEntry) :=
  try
    let bytes ← IO.FS.readBinFile path
    return some (.file ((String.fromUTF8? bytes).map String.toList))
  catch
    | .inappropriateType .. => return some .directory
    | _ => return none

/-- The files that a run with these arguments can read. -/
def filesFor (args : List Text) : IO Files := do
  match (configPath? args).bind Text.chars? with
  | none => return fun _ => none
  | some path =>
      let entry ← entryAt (String.ofList path)
      return fun p => if p = .ofChars path then entry else none

end Unformat.CommandLine

open Unformat CommandLine in
/-- Runs the program with the arguments of the process. -/
def main (args : List String) : IO UInt32 := do
  let args := args.map fun arg => Text.ofChars arg.toList
  let files ← filesFor args
  match run Yaml.readDocument files args with
  | .error crash =>
      (← IO.getStderr).putStrLn crash.message
      return 1
  | .ok reply =>
      (← IO.getStdout).putStr reply.stdout
      (← IO.getStderr).putStr reply.stderr
      return reply.exitCode.toUInt32
