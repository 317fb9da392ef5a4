import NodeGraph.Binary
import NodeGraph.CommandLine.Argument
import NodeGraph.CommandLine.Reply
import NodeGraph.CommandLine.Request
import NodeGraph.Decimal.Numeral
import NodeGraph.Decimal.Shortest
import NodeGraph.Decimal.Style
import NodeGraph.Duration
import NodeGraph.Event
import NodeGraph.Failure
import NodeGraph.File
import NodeGraph.Graph.Basic
import NodeGraph.Graph.Document
import NodeGraph.Graph.Draft
import NodeGraph.Ident
import NodeGraph.Json.Basic
import NodeGraph.Json.Number
import NodeGraph.Json.Parser
import NodeGraph.Json.Printer
import NodeGraph.Json.Record
import NodeGraph.Json.Token
import NodeGraph.Main
import NodeGraph.Operation.Builtin
import NodeGraph.Operation.Context
import NodeGraph.Operation.Table
import NodeGraph.Pass.Basic
import NodeGraph.Pass.Readout
import NodeGraph.Pass.SlotStore
import NodeGraph.Plan.Basic
import NodeGraph.Plan.Defect
import NodeGraph.Plan.OfGraph
import NodeGraph.Plan.Order
import NodeGraph.Plan.SlotPool
import NodeGraph.Proofs.Binary.Fractions
import NodeGraph.Proofs.Binary.Range
import NodeGraph.Proofs.Decimal.Written
import NodeGraph.Proofs.Graph.Numbering
import NodeGraph.Proofs.Graph.Presentation
import NodeGraph.Proofs.Graph.RoundTrip
import NodeGraph.Proofs.Json.Forms
import NodeGraph.Proofs.Json.Numbers
import NodeGraph.Proofs.Json.Spacing
import NodeGraph.Proofs.Json.Tokens
import NodeGraph.Proofs.Json.Trees
import NodeGraph.Proofs.Order.Dependency
import NodeGraph.Proofs.Order.Postorder
import NodeGraph.Proofs.Order.Recursion
import NodeGraph.Proofs.Pass.Coercions
import NodeGraph.Proofs.Pass.Evaluation
import NodeGraph.Proofs.Pass.Faults
import NodeGraph.Proofs.Pass.Invocations
import NodeGraph.Proofs.Pass.Meaning
import NodeGraph.Proofs.Pass.Procedures
import NodeGraph.Proofs.Pass.Readback
import NodeGraph.Proofs.Pass.Remains
import NodeGraph.Proofs.Pass.Steadiness
import NodeGraph.Proofs.Pass.Steps
import NodeGraph.Proofs.Pass.Typing
import NodeGraph.Proofs.Plan.Catalog
import NodeGraph.Proofs.Plan.Checks
import NodeGraph.Proofs.Plan.Claims
import NodeGraph.Proofs.Plan.Isomorphism
import NodeGraph.Proofs.Plan.Layout
import NodeGraph.Proofs.Plan.LivePart
import NodeGraph.Proofs.Plan.Ordering
import NodeGraph.Proofs.Plan.Ownership
import NodeGraph.Proofs.Plan.Renaming
import NodeGraph.Proofs.Plan.Reports
import NodeGraph.Proofs.Plan.Revision
import NodeGraph.Proofs.Plan.Verdicts
import NodeGraph.Proofs.Plan.WellFormed
import NodeGraph.Proofs.Plan.Wiring
import NodeGraph.Proofs.Session.Bookkeeping
import NodeGraph.Proofs.Session.Cadence
import NodeGraph.Proofs.Session.Calls
import NodeGraph.Proofs.Session.Delivery
import NodeGraph.Proofs.Session.Draws
import NodeGraph.Proofs.Session.Faultless
import NodeGraph.Proofs.Session.Forgetting
import NodeGraph.Proofs.Session.Interleaving
import NodeGraph.Proofs.Session.Losses
import NodeGraph.Proofs.Session.Moves
import NodeGraph.Proofs.Session.Pacing
import NodeGraph.Proofs.Session.Playing
import NodeGraph.Proofs.Session.Rates
import NodeGraph.Proofs.Session.Repetition
import NodeGraph.Random
import NodeGraph.Session.Basic
import NodeGraph.Session.Command
import NodeGraph.Session.Host
import NodeGraph.Session.Pacer
import NodeGraph.Session.Playback
import NodeGraph.Settings.Basic
import NodeGraph.Settings.File
import NodeGraph.Text.Hex
import NodeGraph.Text.Quoted
import NodeGraph.Text.Unprintable
import NodeGraph.Toml.Document
import NodeGraph.Toml.Scalar
import NodeGraph.Toml.Table
import NodeGraph.Value
