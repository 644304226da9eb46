import Patchbay.Catalog
import Patchbay.Document.GraphDocument
import Patchbay.Document.NodeDocument
import Patchbay.Document.ReportDocument
import Patchbay.Document.ScriptDocument
import Patchbay.Document.ValueDocument
import Patchbay.Document.Warning
import Patchbay.Frame
import Patchbay.Frame.Composite
import Patchbay.Frame.Picture
import Patchbay.Graph
import Patchbay.Graph.AutoLink
import Patchbay.Graph.Flow
import Patchbay.Headless
import Patchbay.Id
import Patchbay.Json
import Patchbay.Json.Numeral
import Patchbay.Json.Parser
import Patchbay.Json.Printer
import Patchbay.Main
import Patchbay.Node
import Patchbay.Node.Script
import Patchbay.Number.Shortest
import Patchbay.Number.Single
import Patchbay.Number.Text
import Patchbay.Pin
import Patchbay.Proofs.Graph.WellFormed
import Patchbay.Proofs.Run.Actions
import Patchbay.Run
import Patchbay.Run.Execute
import Patchbay.Run.Pull
import Patchbay.Run.State
import Patchbay.Session
import Patchbay.Session.Observer
import Patchbay.Settings
import Patchbay.Settings.Literal
import Patchbay.Settings.Reader
import Patchbay.Settings.Term
import Patchbay.Settings.Writer
import Patchbay.Slot
import Patchbay.Summary
import Patchbay.Table
import Patchbay.Text.Hex
import Patchbay.Text.Quoted
import Patchbay.Text.Runs
import Patchbay.Text.Visible
import Patchbay.Text.Word
import Patchbay.Transition
import Patchbay.Uuid
import Patchbay.Value
import Patchbay.Proofs.Run.Builtin
import Patchbay.Proofs.Run.Pulls
import Patchbay.Proofs.Run.Orderly
import Patchbay.Proofs.Run.Walk
import Patchbay.Proofs.Run.Once
import Patchbay.Proofs.Run.Faithful
import Patchbay.Proofs.Run.Cycles
import Patchbay.Proofs.Catalog
import Patchbay.Proofs.Graph.Wiring
import Patchbay.Proofs.Document.Loading
import Patchbay.Proofs.Session.Health
import Patchbay.Proofs.Session.Operations
import Patchbay.Proofs.Graph.FlowCycles
import Patchbay.Proofs.Run.Determined
import Patchbay.Proofs.Number.Precision
import Patchbay.Proofs.Uuid
import Patchbay.Proofs.Likeness
import Patchbay.Proofs.Document.NodeRoundTrip
import Patchbay.Proofs.Graph.Beside
import Patchbay.Proofs.Document.RoundTrip
import Patchbay.Proofs.Document.Entries
import Patchbay.Proofs.Document.Identities
import Patchbay.Proofs.Document.Merging
import Patchbay.Proofs.Graph.Reach
import Patchbay.Proofs.Run.Errors
import Patchbay.Proofs.Graph.Connectivity
import Patchbay.Proofs.Graph.Splice
import Patchbay.Proofs.Run.Renaming
import Patchbay.Proofs.Run.Mirror
import Patchbay.Proofs.Run.Ending
import Patchbay.Proofs.Run.Agreement
import Patchbay.Proofs.Document.Keeping
import Patchbay.Proofs.Document.Rerun
import Patchbay.Proofs.Document.Accounting
import Patchbay.Proofs.Graph.DataCycles
import Patchbay.Proofs.Document.Restored
import Patchbay.Proofs.Document.Resaving
import Patchbay.Proofs.Run.Delivery
import Patchbay.Proofs.Session.Reserved
import Patchbay.Proofs.Session.Reactions
import Patchbay.Proofs.Session.History
import Patchbay.Proofs.Graph.Reporting
import Patchbay.Proofs.Document.Lenient
import Patchbay.Proofs.Document.Clean
import Patchbay.Proofs.Session.Telling
import Patchbay.Proofs.Headless
import Patchbay.Proofs.Number.Order
import Patchbay.Proofs.Graph.Hops
import Patchbay.Proofs.Graph.Sweep
import Patchbay.Proofs.Graph.Nearest
import Patchbay.Proofs.Graph.Sides
import Patchbay.Proofs.Graph.Requests
import Patchbay.Proofs.Graph.Matching
import Patchbay.Proofs.Graph.Attachment
import Patchbay.Proofs.Graph.Additions
import Patchbay.Proofs.Graph.Outcome
import Patchbay.Proofs.Graph.Runnable
import Patchbay.Proofs.Graph.Removal
import Patchbay.Proofs.Run.Stopping
import Patchbay.Proofs.Run.Transition
import Patchbay.Proofs.Frame.Compositing
import Patchbay.Proofs.Number.Extent
import Patchbay.Proofs.Run.EndPoints
import Patchbay.Proofs.Frame.Rows
import Patchbay.Proofs.Run.Blending
import Patchbay.Proofs.Run.Provenance
import Patchbay.Proofs.Run.Report
import Patchbay.Proofs.Run.Footprint
import Patchbay.Proofs.Run.Repeating
import Patchbay.Proofs.Run.Balance
import Patchbay.Proofs.Slot
import Patchbay.Proofs.Frame.Pictures
import Patchbay.Proofs.Document.Versions
import Patchbay.Proofs.Run.Chronicle
import Patchbay.Proofs.Run.Frames
