import CodeIndex.AcademicWriting
import CodeIndex.Chunk.Basic
import CodeIndex.Chunk.Build
import CodeIndex.Chunk.Pieces
import CodeIndex.Classifier.Rule
import CodeIndex.Classifier.Table
import CodeIndex.Command.Arguments
import CodeIndex.Command.Help
import CodeIndex.Command.Invocation
import CodeIndex.Command.Outcome
import CodeIndex.Command.Session
import CodeIndex.Command.Switch
import CodeIndex.Config.Basic
import CodeIndex.Config.Environment
import CodeIndex.Config.Reader
import CodeIndex.Config.Record
import CodeIndex.Digest.Blake3
import CodeIndex.Digest.Hex
import CodeIndex.Event.Basic
import CodeIndex.Event.Channel
import CodeIndex.Fault
import CodeIndex.FileTree.Basic
import CodeIndex.FileTree.Resolve
import CodeIndex.Glob
import CodeIndex.Graph.Callee
import CodeIndex.Graph.Extract
import CodeIndex.Graph.Score
import CodeIndex.Graph.Symbols
import CodeIndex.Groups
import CodeIndex.Identity
import CodeIndex.Ignore.Pattern
import CodeIndex.Ignore.Rules
import CodeIndex.Imports.Basic
import CodeIndex.Imports.Ecmascript
import CodeIndex.Imports.Go
import CodeIndex.Imports.Python
import CodeIndex.Imports.Reader
import CodeIndex.Imports.UseTree
import CodeIndex.Ingest.Processor
import CodeIndex.Json
import CodeIndex.Json.StringList
import CodeIndex.Keyed
import CodeIndex.Language.Profile
import CodeIndex.Language.Registry
import CodeIndex.LineIndex
import CodeIndex.LineOffsets
import CodeIndex.Main
import CodeIndex.Number.Binary32
import CodeIndex.Number.Decimal
import CodeIndex.Number.Numeral
import CodeIndex.Number.Signed64
import CodeIndex.Path
import CodeIndex.Proofs.Chunk.Attribution
import CodeIndex.Proofs.Chunk.Boundaries
import CodeIndex.Proofs.Chunk.Budget
import CodeIndex.Proofs.Chunk.Cuts
import CodeIndex.Proofs.Chunk.Distinct
import CodeIndex.Proofs.Chunk.Fallback
import CodeIndex.Proofs.Chunk.Layout
import CodeIndex.Proofs.Chunk.Partition
import CodeIndex.Proofs.Chunk.Unsplittable
import CodeIndex.Proofs.Classifier.FirstMatch
import CodeIndex.Proofs.Config.Overrides
import CodeIndex.Proofs.FileTree.Places
import CodeIndex.Proofs.FileTree.Resolve
import CodeIndex.Proofs.Graph.Callee
import CodeIndex.Proofs.Graph.EarlyStop
import CodeIndex.Proofs.Graph.Extraction
import CodeIndex.Proofs.Graph.Findings
import CodeIndex.Proofs.Graph.Meaning
import CodeIndex.Proofs.Graph.Order
import CodeIndex.Proofs.Graph.Repetitions
import CodeIndex.Proofs.Graph.Resolution
import CodeIndex.Proofs.Graph.Triples
import CodeIndex.Proofs.Graph.Types
import CodeIndex.Proofs.Graph.Visits
import CodeIndex.Proofs.Identity
import CodeIndex.Proofs.Imports.Python
import CodeIndex.Proofs.Imports.UseTree
import CodeIndex.Proofs.Ingest.AllOrNothing
import CodeIndex.Proofs.Ingest.Apart
import CodeIndex.Proofs.Ingest.Entries
import CodeIndex.Proofs.Json.StringList
import CodeIndex.Proofs.Keyed
import CodeIndex.Proofs.Keyed.Duplicates
import CodeIndex.Proofs.Language.Kinds
import CodeIndex.Proofs.Language.Routing
import CodeIndex.Proofs.Lines.Fewest
import CodeIndex.Proofs.Lines.Greedy
import CodeIndex.Proofs.Lines.Slices
import CodeIndex.Proofs.Lines.Text
import CodeIndex.Proofs.Lines.Windows
import CodeIndex.Proofs.Number.Digits
import CodeIndex.Proofs.Path
import CodeIndex.Proofs.Scheduler.Accounts
import CodeIndex.Proofs.Scheduler.Admission
import CodeIndex.Proofs.Scheduler.Announcements
import CodeIndex.Proofs.Scheduler.Cancellation
import CodeIndex.Proofs.Scheduler.Capacity
import CodeIndex.Proofs.Scheduler.Custody
import CodeIndex.Proofs.Scheduler.Debts
import CodeIndex.Proofs.Scheduler.Dispatch
import CodeIndex.Proofs.Scheduler.Excuses
import CodeIndex.Proofs.Scheduler.History
import CodeIndex.Proofs.Scheduler.Jobs
import CodeIndex.Proofs.Scheduler.Listing
import CodeIndex.Proofs.Scheduler.Log
import CodeIndex.Proofs.Scheduler.Moves
import CodeIndex.Proofs.Scheduler.Permits
import CodeIndex.Proofs.Scheduler.Progress
import CodeIndex.Proofs.Scheduler.Saved
import CodeIndex.Proofs.Scheduler.Sources
import CodeIndex.Proofs.Scheduler.Stored
import CodeIndex.Proofs.Scheduler.Turns
import CodeIndex.Proofs.Source.Head
import CodeIndex.Proofs.Source.Scan
import CodeIndex.Proofs.Store.Atomic
import CodeIndex.Proofs.Store.Entries
import CodeIndex.Proofs.Store.Integrity
import CodeIndex.Proofs.Store.Refinement
import CodeIndex.Proofs.Store.Rows
import CodeIndex.Proofs.Store.Simulation
import CodeIndex.Proofs.Store.Table
import CodeIndex.Proofs.Store.Writes
import CodeIndex.Proofs.Syntax.Ancestors
import CodeIndex.Proofs.Syntax.Walk
import CodeIndex.Proofs.Task.Changes
import CodeIndex.Proofs.Task.Lifecycle
import CodeIndex.Proofs.Task.Records
import CodeIndex.Proofs.Task.Retention
import CodeIndex.Proofs.Text.Octets
import CodeIndex.Proofs.Text.Order
import CodeIndex.Proofs.Text.Trim
import CodeIndex.Proofs.Time.Calendar
import CodeIndex.Proofs.Time.StoredText
import CodeIndex.Proofs.Unit.Around
import CodeIndex.Proofs.Unit.Leading
import CodeIndex.Proofs.Unit.Nesting
import CodeIndex.Report.Layout
import CodeIndex.Report.Records
import CodeIndex.Report.Terminal
import CodeIndex.Resource
import CodeIndex.Scheduler.Basic
import CodeIndex.Scheduler.Settle
import CodeIndex.Scheduler.Step
import CodeIndex.Source.Binary
import CodeIndex.Source.Head
import CodeIndex.Source.Provider
import CodeIndex.Source.Scan
import CodeIndex.Source.Snapshot
import CodeIndex.Store.Attempt
import CodeIndex.Store.Cell
import CodeIndex.Store.Database
import CodeIndex.Store.Export
import CodeIndex.Store.Memory
import CodeIndex.Store.Rows
import CodeIndex.Suffixes
import CodeIndex.Syntax.Name
import CodeIndex.Syntax.Tree
import CodeIndex.Syntax.Walk
import CodeIndex.Task.Basic
import CodeIndex.Task.Registry
import CodeIndex.Text.Alphanumeric
import CodeIndex.Text.Lowercase
import CodeIndex.Text.Ranges
import CodeIndex.Text.Space
import CodeIndex.Text.Split
import CodeIndex.Text.Utf8
import CodeIndex.Text.Word
import CodeIndex.Time.Calendar
import CodeIndex.Time.Timestamp
import CodeIndex.Triple
import CodeIndex.Unit.Basic
import CodeIndex.Unit.Collect
import CodeIndex.Yaml.Cursor
import CodeIndex.Yaml.Node
import CodeIndex.Yaml.Reads
import CodeIndex.Yaml.Scalar
import CodeIndex.Yaml.Token
