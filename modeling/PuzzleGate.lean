import PuzzleGate.Call.Grammar
import PuzzleGate.Corpus.Schedule
import PuzzleGate.Main
import PuzzleGate.Call.Pattern
import PuzzleGate.Call.Slice
import PuzzleGate.Proofs.Call.Front
import PuzzleGate.Proofs.Call.Slice
import PuzzleGate.Proofs.Call.Scan
import PuzzleGate.Proofs.Call.Pattern
import PuzzleGate.Proofs.Call.Grammar
import PuzzleGate.Proofs.Call.Elements
import PuzzleGate.Proofs.Call.Overlap
import PuzzleGate.Proofs.Fold
import PuzzleGate.Proofs.Elements
import PuzzleGate.Proofs.AllowList
import PuzzleGate.Proofs.Address
import PuzzleGate.Proofs.Validator
import PuzzleGate.Proofs.Gate
import PuzzleGate.Proofs.Files.Tree
import PuzzleGate.Proofs.Files.Shape
import PuzzleGate.Proofs.Corpus.Discovery
import PuzzleGate.Proofs.Corpus.Run
import PuzzleGate.Proofs.Report
import PuzzleGate.Proofs.Text.Order
import PuzzleGate.Proofs.Text.Lines
import PuzzleGate.Proofs.Path.Basic
import PuzzleGate.Proofs.Files.Content
import PuzzleGate.Proofs.Corpus.Schedule
import PuzzleGate.Proofs.Corpus.Independence
import PuzzleGate.Proofs.Stages
import PuzzleGate.Proofs.Outcome
import PuzzleGate.Proofs.Metadata
import PuzzleGate.Proofs.Call.Wrap
import PuzzleGate.Proofs.Path.Order
import PuzzleGate.Proofs.Files.Listing
import PuzzleGate.Proofs.Path.Extension
import PuzzleGate.Proofs.Corpus.Exact
import PuzzleGate.Proofs.Cli.Agreement
import PuzzleGate.Call.Tally
import PuzzleGate.Proofs.Call.Counts
import PuzzleGate.Proofs.Corpus.Log
import PuzzleGate.Proofs.Json.Token
import PuzzleGate.Proofs.Json.Tree
import PuzzleGate.Proofs.Json.Value
import PuzzleGate.Proofs.Compiler
import PuzzleGate.Proofs.Cli.Listing
import PuzzleGate.Proofs.RawContent
import PuzzleGate.Proofs.Call.Separator
import PuzzleGate.Proofs.Metadata.Diagnosis
import PuzzleGate.Proofs.Lookup
import PuzzleGate.Proofs.Json.Members
import PuzzleGate.Proofs.Json.Reading
import PuzzleGate.Proofs.Json.OneLine
import PuzzleGate.Proofs.Metadata.Reading
import PuzzleGate.Proofs.Json.Sorted
import PuzzleGate.Proofs.Report.Json
import PuzzleGate.Proofs.Address.Reading
import PuzzleGate.Proofs.Metadata.RoundTrip
import PuzzleGate.Proofs.Metadata.Credits
import PuzzleGate.Proofs.AllowList.File
import PuzzleGate.Proofs.AllowList.Formats
import PuzzleGate.Proofs.AllowList.Verdict
import PuzzleGate.Proofs.AllowList.Names
import PuzzleGate.Proofs.Validator.Reads
import PuzzleGate.Proofs.Report.Counters
import PuzzleGate.Proofs.Text.Pieces
import PuzzleGate.Proofs.Report.StatusLines
import PuzzleGate.Proofs.Validator.Details
import PuzzleGate.Proofs.Corpus.Summary
import PuzzleGate.Path.Prefix
import PuzzleGate.Proofs.Path.Written
import PuzzleGate.Proofs.Path.Prefix
import PuzzleGate.Proofs.Path.Identifier
import PuzzleGate.Proofs.Path.Slashes
import PuzzleGate.Proofs.Cli.Breakdown
import PuzzleGate.Proofs.Path.Parent
import PuzzleGate.Proofs.Files.Absolute
import PuzzleGate.Proofs.Corpus.Footprint
import PuzzleGate.Proofs.Cli.Directory
import PuzzleGate.Proofs.Text.Lossy
