import Handoff.Archive
import Handoff.Blob.Call
import Handoff.Blob.Directory
import Handoff.Blob.Key
import Handoff.Blob.Memory
import Handoff.Blob.Spec
import Handoff.Blob.Table
import Handoff.Command
import Handoff.CommandLine
import Handoff.Commands
import Handoff.Duration
import Handoff.Files
import Handoff.Git
import Handoff.Host.Agent
import Handoff.Host.Basic
import Handoff.Host.DatabaseName
import Handoff.Host.FileTree
import Handoff.Host.GitScript
import Handoff.Host.Image
import Handoff.Host.Kernel
import Handoff.Host.Kernel.Answer
import Handoff.Host.Kernel.Schedule
import Handoff.Host.Launch
import Handoff.Host.OpenStore
import Handoff.Host.Process
import Handoff.Host.Regex
import Handoff.Host.Rehearsal
import Handoff.Host.Runner
import Handoff.Host.Shell.Arithmetic
import Handoff.Host.Shell.Builtin
import Handoff.Host.Shell.Execution
import Handoff.Host.Shell.Expansion
import Handoff.Host.Shell.Fields
import Handoff.Host.Shell.Format
import Handoff.Host.Shell.Invocation
import Handoff.Host.Shell.Job
import Handoff.Host.Shell.Pattern
import Handoff.Host.Shell.Reader
import Handoff.Host.Shell.Redirection
import Handoff.Host.Shell.Script
import Handoff.Host.Shell.State
import Handoff.Host.Shell.Test
import Handoff.Host.SystemCall
import Handoff.Host.Tool.Basic
import Handoff.Host.Tool.Comparing
import Handoff.Host.Tool.Copying
import Handoff.Host.Tool.Date
import Handoff.Host.Tool.Dump
import Handoff.Host.Tool.Edit
import Handoff.Host.Tool.EditScript
import Handoff.Host.Tool.Files
import Handoff.Host.Tool.Find
import Handoff.Host.Tool.Installed
import Handoff.Host.Tool.LineInput
import Handoff.Host.Tool.Lines
import Handoff.Host.Tool.Listing
import Handoff.Host.Tool.Processes
import Handoff.Host.Tool.Search
import Handoff.Host.Tool.Stream
import Handoff.Host.Tool.Words
import Handoff.Json
import Handoff.Json.Number
import Handoff.Json.Reader
import Handoff.OsFault
import Handoff.Path
import Handoff.Plan
import Handoff.Plan.Reader
import Handoff.Program
import Handoff.Proofs.Archive.Overwrite
import Handoff.Proofs.Archive.Readable
import Handoff.Proofs.Archive.Reading
import Handoff.Proofs.Archive.RoundTrip
import Handoff.Proofs.Archive.Writing
import Handoff.Proofs.Blob.KeyValue
import Handoff.Proofs.Blob.Layout
import Handoff.Proofs.Blob.Listing
import Handoff.Proofs.Blob.LogKey
import Handoff.Proofs.Blob.Running
import Handoff.Proofs.Blob.UnitKeys
import Handoff.Proofs.Conduct
import Handoff.Proofs.Conversation
import Handoff.Proofs.Git.Checkout
import Handoff.Proofs.Performance
import Handoff.Proofs.Round.Agreement
import Handoff.Proofs.Round.Coherence
import Handoff.Proofs.Round.Effect
import Handoff.Proofs.Round.Exchange
import Handoff.Proofs.Round.Freshness
import Handoff.Proofs.Round.Grounds
import Handoff.Proofs.Round.Interleaving
import Handoff.Proofs.Round.Ledger
import Handoff.Proofs.Round.Offer
import Handoff.Proofs.Round.OfferLoss
import Handoff.Proofs.Round.Orderly
import Handoff.Proofs.Round.Ownership
import Handoff.Proofs.Round.Poll
import Handoff.Proofs.Round.PollRecord
import Handoff.Proofs.Round.Reload
import Handoff.Proofs.Round.Replay
import Handoff.Proofs.Round.RunLogs
import Handoff.Proofs.Round.Stage
import Handoff.Proofs.Round.Unruly
import Handoff.Proofs.Round.Verdict
import Handoff.Proofs.Round.View
import Handoff.Proofs.Round.Visibility
import Handoff.Proofs.Round.Waiting
import Handoff.Proofs.Text.ByteOrder
import Handoff.Proofs.Text.Decimal
import Handoff.Report
import Handoff.Repository
import Handoff.Round.Consumer
import Handoff.Round.Fault
import Handoff.Round.Producer
import Handoff.Run.Capture
import Handoff.Run.ExitStatus
import Handoff.Run.Fault
import Handoff.Run.Sequence
import Handoff.Run.Supervision
import Handoff.Sha256
import Handoff.Signal
import Handoff.SignalBoard
import Handoff.StringMap
import Handoff.Text.ByteText
import Handoff.Text.CharClass
import Handoff.Text.Decimal
import Handoff.Text.Shown
import Handoff.Text.Utf8
import Handoff.Watch
import Handoff.Work
import Handoff.WorkUnitId
import Handoff.Main
import Handoff.Proofs.Blob.Reference
import Handoff.Proofs.Archive.Isolation
import Handoff.Proofs.Files.Lookup
import Handoff.Proofs.Files.Reach
import Handoff.Proofs.Files.Calls
import Handoff.Proofs.Files.Directories
import Handoff.Proofs.Directory.Naming
import Handoff.Proofs.Directory.Keeping
import Handoff.Proofs.Directory.Walking
import Handoff.Proofs.Directory.Agreement
import Handoff.Proofs.Files.Outcomes
import Handoff.Proofs.Directory.Sharing
import Handoff.Proofs.Directory.Separation
import Handoff.Proofs.Directory.Clash
import Handoff.Proofs.Directory.Slots
import Handoff.Proofs.Directory.Looking
import Handoff.Proofs.Files.Course
import Handoff.Proofs.Directory.Breaking
import Handoff.Proofs.Directory.CrashSafety
import Handoff.Proofs.Directory.Records
import Handoff.Proofs.Directory.Statuses
import Handoff.Proofs.Directory.Showing
import Handoff.Proofs.Run.Aggregate
import Handoff.Proofs.Round.Recovery
import Handoff.Proofs.Run.Supervising
import Handoff.Proofs.Run.Discipline
import Handoff.Proofs.Run.Deadlines
import Handoff.Proofs.Duration
import Handoff.Proofs.Run.Budget
import Handoff.Proofs.Json.Number
import Handoff.Proofs.Plan.Format
import Handoff.Proofs.Plan.Parts
import Handoff.Proofs.Plan.Reading
import Handoff.Proofs.Signals
import Handoff.Proofs.Text.Literal
import Handoff.Proofs.Archive.Fetching
import Handoff.Proofs.Text.Decoding
import Handoff.Proofs.Commands
import Handoff.Proofs.Round.Passing
import Handoff.Proofs.Run.OneVerdict
import Handoff.Proofs.Directory.AnyTree
import Handoff.Proofs.Directory.Missing
import Handoff.Proofs.Plan.Timeout
import Handoff.Proofs.Watch
import Handoff.Proofs.Blob.Spec
import Handoff.Proofs.Directory.Placement
import Handoff.Proofs.Run.Capturing
