import WireBody.NameMap
import WireBody.Entries
import WireBody.Json.Reader
import WireBody.Json.Printer
import WireBody.Json.Record
import WireBody.Service.Validity
import WireBody.Service.Description
import WireBody.Service.Dump
import WireBody.Request.OfJson
import WireBody.Xml.Writer
import WireBody.Program.Basic
import WireBody.Compile.Body
import WireBody.Run.Interp
import WireBody.Program.Form
import WireBody.Settings.Config
import WireBody.Command.Arguments
import WireBody.Command.Session
import WireBody.Main
import WireBody.Proofs.Outcome
import WireBody.Proofs.Entries
import WireBody.Proofs.Json.ByName
import WireBody.Proofs.Service.Carries
import WireBody.Proofs.Service.Loaded
import WireBody.Proofs.Request.Parts
import WireBody.Proofs.Request.Conformance
import WireBody.Proofs.Request.SameBody
import WireBody.Proofs.Compile.Steps
import WireBody.Proofs.Compile.Closure
import WireBody.Proofs.Compile.Coverage
import WireBody.Proofs.Xml.Reader
import WireBody.Proofs.Xml.RoundTrip
import WireBody.Proofs.Run.Pieces
import WireBody.Proofs.Run.Steps
import WireBody.Proofs.Run.Attributes
import WireBody.Proofs.Run.Written
import WireBody.Proofs.Direct.Writer
import WireBody.Proofs.Direct.Agreement
import WireBody.Proofs.Direct.Acceptance
import WireBody.Proofs.Direct.Ownership
import WireBody.Proofs.Direct.Faithful
import WireBody.Proofs.Compile.Scoping
import WireBody.Proofs.Direct.Failure
import WireBody.Proofs.Service.Sound
import WireBody.Proofs.Compile.Fragment
import WireBody.Proofs.Direct.Confined
import WireBody.Proofs.Run.Recovered
import WireBody.Proofs.Direct.PayloadRoot
import WireBody.Proofs.Text.ByteOrder
import WireBody.Proofs.Command.Arguments
import WireBody.Proofs.Command.Acts
import WireBody.Proofs.Command.Environment
import WireBody.Proofs.Command.Steps
import WireBody.Proofs.Command.Pipeline
import WireBody.Proofs.Run.Elements
import WireBody.Proofs.Command.Listing
import WireBody.Proofs.Service.Records
import WireBody.Proofs.Service.Readings
import WireBody.Proofs.Service.Described
import WireBody.Proofs.Compile.Reachable
import WireBody.Proofs.Compile.Total
import WireBody.Proofs.Run.Evaluation
import WireBody.Proofs.Direct.Items
import WireBody.Proofs.Service.WellFormed
import WireBody.Proofs.Compile.Footprint
import WireBody.Proofs.Direct.Namespace
import WireBody.Proofs.Direct.Blame
import WireBody.Proofs.Compile.Offenders
import WireBody.Proofs.Service.Circles
import WireBody.Proofs.Service.Parts
import WireBody.Proofs.Json.Grammar
import WireBody.Proofs.Json.Following
import WireBody.Proofs.Json.Kept
import WireBody.Proofs.Service.Texts
import WireBody.Proofs.Service.UnknownNames
import WireBody.Proofs.Service.Order
import WireBody.Proofs.Request.Documents
import WireBody.Proofs.Direct.Emptiness
import WireBody.Proofs.Run.Exchange
import WireBody.Proofs.Run.Traces
import WireBody.Proofs.Run.Origins
import WireBody.Proofs.Json.Printed
import WireBody.Proofs.Json.Rearranged
import WireBody.Proofs.Program.RoundTrip
