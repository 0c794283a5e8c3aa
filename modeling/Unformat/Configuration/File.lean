/-
Configurations of handlers in files: the text of a file is read as one
document, and the document as a configuration. How a document is read is
left open. A reader gives the datum of a text, or a fault if there is
none; what a file says is then what its datum says, whatever the reader
is. The program has `Yaml.readDocument` for one, which knows a part of
YAML only.
-/
import Unformat.Configuration.Basic

namespace Unformat

/-- How the text of a document is read. -/
abbrev DocumentReader := List Char → Except DocumentFault Datum

/-- The configuration in the text of a file. -/
def Configuration.ofFile (read : DocumentReader) (contents : List Char) :
    Except ConfigurationFault Configuration :=
  match read contents with
  | .error fault => .error (.document fault)
  | .ok d => ofDatum d

end Unformat
