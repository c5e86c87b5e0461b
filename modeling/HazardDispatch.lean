import HazardDispatch.Calculation.Basic
import HazardDispatch.CommandLine.Controller
import HazardDispatch.CommandLine.Files
import HazardDispatch.CommandLine.Outcome
import HazardDispatch.CommandLine.Settings
import HazardDispatch.CommandLine.Values
import HazardDispatch.CommandLine.Worker
import HazardDispatch.Controller.Config
import HazardDispatch.Controller.Server
import HazardDispatch.Decimal.Binary64
import HazardDispatch.Decimal.Digits
import HazardDispatch.Decimal.Numeral
import HazardDispatch.Decimal.Shortest
import HazardDispatch.Dispatch.Basic
import HazardDispatch.Dispatch.Schedule
import HazardDispatch.Dispatch.Settle
import HazardDispatch.Dispatch.Sink
import HazardDispatch.Dispatch.Submit
import HazardDispatch.Halting
import HazardDispatch.Http.MediaType
import HazardDispatch.Http.Message
import HazardDispatch.Http.Path
import HazardDispatch.Http.Url
import HazardDispatch.Json.Decode
import HazardDispatch.Json.Parser
import HazardDispatch.Json.Printer
import HazardDispatch.Json.Syntax
import HazardDispatch.LogLine
import HazardDispatch.Main
import HazardDispatch.Net.SocketAddress
import HazardDispatch.Pool.Basic
import HazardDispatch.Pool.Call
import HazardDispatch.Pool.Probe
import HazardDispatch.Proofs.Calculation.Abort
import HazardDispatch.Proofs.Calculation.Closing
import HazardDispatch.Proofs.Calculation.Moves
import HazardDispatch.Proofs.Calculation.Pipeline
import HazardDispatch.Proofs.Calculation.Session
import HazardDispatch.Proofs.Calculation.Sound
import HazardDispatch.Proofs.Decimal.Amount
import HazardDispatch.Proofs.Decimal.Magnitude
import HazardDispatch.Proofs.Decimal.Readback
import HazardDispatch.Proofs.Decimal.Rounding
import HazardDispatch.Proofs.Dispatch.Account
import HazardDispatch.Proofs.Dispatch.Actions
import HazardDispatch.Proofs.Dispatch.Answers
import HazardDispatch.Proofs.Dispatch.Backpressure
import HazardDispatch.Proofs.Dispatch.Calls
import HazardDispatch.Proofs.Dispatch.Cancellation
import HazardDispatch.Proofs.Dispatch.Cycle
import HazardDispatch.Proofs.Dispatch.Deadlines
import HazardDispatch.Proofs.Dispatch.Dropped
import HazardDispatch.Proofs.Dispatch.Hearing
import HazardDispatch.Proofs.Dispatch.Leases
import HazardDispatch.Proofs.Dispatch.Ledger
import HazardDispatch.Proofs.Dispatch.Overflow
import HazardDispatch.Proofs.Dispatch.Partition
import HazardDispatch.Proofs.Dispatch.Placement
import HazardDispatch.Proofs.Dispatch.Progress
import HazardDispatch.Proofs.Dispatch.Queue
import HazardDispatch.Proofs.Dispatch.Removal
import HazardDispatch.Proofs.Dispatch.Run
import HazardDispatch.Proofs.Dispatch.Standing
import HazardDispatch.Proofs.Dispatch.Stranding
import HazardDispatch.Proofs.Dispatch.Turn
import HazardDispatch.Proofs.Dispatch.Unasked
import HazardDispatch.Proofs.Dispatch.Watch
import HazardDispatch.Proofs.Http.Path
import HazardDispatch.Proofs.Json.Codec
import HazardDispatch.Proofs.Json.RoundTrip
import HazardDispatch.Proofs.Json.Sizes
import HazardDispatch.Proofs.Json.Values
import HazardDispatch.Proofs.Pool.Avoidance
import HazardDispatch.Proofs.Pool.Effects
import HazardDispatch.Proofs.Pool.Eviction
import HazardDispatch.Proofs.Pool.Fairness
import HazardDispatch.Proofs.Pool.Lease
import HazardDispatch.Proofs.Pool.Prober
import HazardDispatch.Proofs.Pool.Rotation
import HazardDispatch.Proofs.Pool.Status
import HazardDispatch.Proofs.Pool.Wakeup
import HazardDispatch.Proofs.Report.Assembly
import HazardDispatch.Proofs.Report.Completeness
import HazardDispatch.Proofs.Report.Counters
import HazardDispatch.Proofs.Report.Figures
import HazardDispatch.Proofs.Report.History
import HazardDispatch.Proofs.Report.Order
import HazardDispatch.Proofs.Report.Ranking
import HazardDispatch.Proofs.Report.Tally
import HazardDispatch.Proofs.Simulation.Changes
import HazardDispatch.Proofs.Simulation.Steps
import HazardDispatch.Proofs.Source.Blocks
import HazardDispatch.Proofs.Source.Output
import HazardDispatch.Proofs.Source.Partition
import HazardDispatch.Proofs.Source.Plan
import HazardDispatch.Proofs.Stats.Exact
import HazardDispatch.Proofs.Stats.Snapshot
import HazardDispatch.Proofs.Table
import HazardDispatch.Proofs.Table.Gathering
import HazardDispatch.Proofs.Text.Base64
import HazardDispatch.Proofs.Text.Percent
import HazardDispatch.Proofs.Text.Utf8
import HazardDispatch.Proofs.Wire.Cancel
import HazardDispatch.Proofs.Wire.Exchange
import HazardDispatch.Proofs.Wire.Messages
import HazardDispatch.Proofs.Wire.RoundTrip
import HazardDispatch.Proofs.Worker.Accounting
import HazardDispatch.Proofs.Worker.Executor
import HazardDispatch.Proofs.Worker.Slot
import HazardDispatch.Random.Draws
import HazardDispatch.Random.Keystream
import HazardDispatch.Report.Assembler
import HazardDispatch.Report.Basic
import HazardDispatch.Simulation.Basic
import HazardDispatch.Simulation.Daemon
import HazardDispatch.Simulation.Run
import HazardDispatch.Simulation.Step
import HazardDispatch.Simulation.Workers
import HazardDispatch.Source.Output
import HazardDispatch.Source.Plan
import HazardDispatch.Source.Spec
import HazardDispatch.Source.Split
import HazardDispatch.Stats.Exposition
import HazardDispatch.Stats.Metrics
import HazardDispatch.Stats.Running
import HazardDispatch.Stats.Scalar
import HazardDispatch.Stats.Summary
import HazardDispatch.Table
import HazardDispatch.Task.Basic
import HazardDispatch.Task.Fresh
import HazardDispatch.Task.Id
import HazardDispatch.Task.Operation
import HazardDispatch.Task.Payload
import HazardDispatch.Task.Result
import HazardDispatch.Text.Base64
import HazardDispatch.Text.Blank
import HazardDispatch.Text.Hex
import HazardDispatch.Text.Percent
import HazardDispatch.Text.Pieces
import HazardDispatch.Text.Printable
import HazardDispatch.Text.Utf8
import HazardDispatch.Time.Duration
import HazardDispatch.Time.Instant
import HazardDispatch.Wire.Client
import HazardDispatch.Wire.Execute
import HazardDispatch.Wire.Message
import HazardDispatch.Wire.TransportError
import HazardDispatch.Word64
import HazardDispatch.Worker.Config
import HazardDispatch.Worker.Executor
import HazardDispatch.Worker.Handle
import HazardDispatch.Worker.Registration
import HazardDispatch.Worker.Server
import HazardDispatch.Worker.Slot
