import Unformat.Session.Basic
import Unformat.Main
import Unformat.Proofs.Directive.Normal
import Unformat.Proofs.Match.Live
import Unformat.Proofs.Match.RoundTrip
import Unformat.Proofs.Match.Values
import Unformat.Proofs.Match.Typed
import Unformat.Proofs.Match.Policy
import Unformat.Proofs.Session.Bound
import Unformat.Proofs.Session.Calls
import Unformat.Proofs.Cut.Placement
import Unformat.Proofs.Match.Total
import Unformat.Proofs.Match.Plain
import Unformat.Proofs.Match.LetterCase
import Unformat.Proofs.Cut.LetterCase
import Unformat.Proofs.Cut.Growth
import Unformat.Proofs.Configuration.Accepted
import Unformat.Proofs.Configuration.Written
import Unformat.Proofs.Configuration.Faults
import Unformat.Proofs.Configuration.Documents
import Unformat.Proofs.Session.Sources
import Unformat.Proofs.Match.Rejection
import Unformat.Proofs.Session.Valid
import Unformat.Proofs.CommandLine.Reply
import Unformat.Proofs.Number.Numeral
import Unformat.Proofs.Match.Narrowing
import Unformat.Proofs.Match.Legacy
import Unformat.Proofs.Match.Numbers
import Unformat.Proofs.CommandLine.Decimals
import Unformat.Proofs.Match.Log
import Unformat.Proofs.CommandLine.Printed
import Unformat.Proofs.CommandLine.Listing
import Unformat.Proofs.Match.Finite
import Unformat.Proofs.Shape.Wrapping
import Unformat.Proofs.Shape.Resolution
import Unformat.Proofs.Literal.Search
import Unformat.Proofs.Directive.TruthValues
