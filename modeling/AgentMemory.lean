import AgentMemory.Decimal.Shortest
import AgentMemory.Decimal.Text
import AgentMemory.Json.Value
import AgentMemory.Json.Write
import AgentMemory.Json.Read
import AgentMemory.Text.Case
import AgentMemory.Regex.Syntax
import AgentMemory.Regex.Program
import AgentMemory.Regex.Search
import AgentMemory.Secrets.Policy
import AgentMemory.Secrets.Scrub
import AgentMemory.Clock.Span
import AgentMemory.Clock.Instant
import AgentMemory.Failure
import AgentMemory.Json.Decode
import AgentMemory.Text.Quote
import AgentMemory.Transcript.Parse
import AgentMemory.Transcript.Extract
import AgentMemory.Disk.Path
import AgentMemory.Disk.Tree
import AgentMemory.Logging.Entry
import AgentMemory.Telemetry.Meter
import AgentMemory.Storage.World
import AgentMemory.Storage.Document
import AgentMemory.Storage.Processes
import AgentMemory.Procedural.Rule
import AgentMemory.Episodic.Episode
import AgentMemory.Text.Number
import AgentMemory.Config.Settings
import AgentMemory.Config.Loose
import AgentMemory.Config.Load
import AgentMemory.Hooks.Event
import AgentMemory.Semantic.Fact
import AgentMemory.Semantic.Store
import AgentMemory.Procedural.Store
import AgentMemory.Episodic.Index
import AgentMemory.Episodic.Store
import AgentMemory.Reasoning.Log
import AgentMemory.Digest.Md5
import AgentMemory.Memory.Manager
import AgentMemory.Text.Csv
import AgentMemory.Reflection.Executor
import AgentMemory.Reflection.Watcher
import AgentMemory.Memory.Assembly
import AgentMemory.Logging.Recorder
import AgentMemory.Logging.Options
import AgentMemory.Logging.Encoder
import AgentMemory.Logging.Logger
import AgentMemory.Json.Lenient
import AgentMemory.CommandLine.Flag
import AgentMemory.CommandLine.Line
import AgentMemory.CommandLine.Setup
import AgentMemory.CommandLine.Run
import AgentMemory.Logging.Document
import AgentMemory.Memory.Requests
import AgentMemory.CommandLine.Memory
import AgentMemory.CommandLine.Reflect
import AgentMemory.CommandLine.Places
import AgentMemory.Main
import AgentMemory.Proofs.Json.RoundTrip
import AgentMemory.Proofs.Clock.Civil
import AgentMemory.Proofs.Clock.Rfc3339
import AgentMemory.Proofs.Clock.Layouts
import AgentMemory.Proofs.Json.Records
import AgentMemory.Proofs.Storage.Run
import AgentMemory.Proofs.Episodic.Documents
import AgentMemory.Proofs.Episodic.Invariant
import AgentMemory.Proofs.Episodic.Migration
import AgentMemory.Proofs.Episodic.Search
import AgentMemory.Proofs.Disk.Paths
import AgentMemory.Proofs.Disk.Tree
import AgentMemory.Proofs.Storage.Files
import AgentMemory.Proofs.Storage.Serial
import AgentMemory.Proofs.Episodic.Layout
import AgentMemory.Proofs.Decimal.Order
import AgentMemory.Proofs.Decimal.Bits
import AgentMemory.Proofs.Decimal.Rounding
import AgentMemory.Proofs.Decimal.Digits
import AgentMemory.Proofs.Decimal.Literal
import AgentMemory.Proofs.Decimal.Round
import AgentMemory.Proofs.Decimal.Arithmetic
import AgentMemory.Proofs.Decimal.Values
import AgentMemory.Proofs.Clock.Days
import AgentMemory.Proofs.Procedural.Ranking
import AgentMemory.Proofs.Procedural.Merge
import AgentMemory.Proofs.Procedural.Updates
import AgentMemory.Proofs.Procedural.UnusedDecay
import AgentMemory.Proofs.Regex.Matches
import AgentMemory.Proofs.Secrets.Redaction
import AgentMemory.Proofs.Procedural.Codec
import AgentMemory.Proofs.Procedural.RoundTrip
import AgentMemory.Proofs.Storage.Rejection
import AgentMemory.Proofs.Episodic.Writes
import AgentMemory.Proofs.Semantic.Documents
import AgentMemory.Proofs.Semantic.Runs
import AgentMemory.Proofs.Semantic.Refinement
import AgentMemory.Proofs.Semantic.Expiry
import AgentMemory.Proofs.Reflection.Extraction
import AgentMemory.Proofs.Reflection.Patterns
import AgentMemory.Proofs.Episodic.Export
import AgentMemory.Proofs.Transcript.Phrases
import AgentMemory.Proofs.Transcript.Log
import AgentMemory.Proofs.Logging.Redaction
import AgentMemory.Proofs.Json.Compact
import AgentMemory.Proofs.Text.Lines
import AgentMemory.Proofs.Reasoning.Log
import AgentMemory.Proofs.Procedural.Bounds
import AgentMemory.Proofs.Config.Validation
import AgentMemory.Proofs.Secrets.NormalForm
import AgentMemory.Proofs.Reflection.Tail
import AgentMemory.Proofs.Episodic.Retrieval
