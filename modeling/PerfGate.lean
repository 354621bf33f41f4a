import PerfGate.Baseline
import PerfGate.Calendar
import PerfGate.CommandLine.Command
import PerfGate.CommandLine.Grammar
import PerfGate.CommandLine.Value
import PerfGate.Commands.Check
import PerfGate.Commands.Client
import PerfGate.Commands.Documents
import PerfGate.Commands.Failure
import PerfGate.Commands.Program
import PerfGate.Commands.Report
import PerfGate.Commands.Run
import PerfGate.Commands.Settings
import PerfGate.Config
import PerfGate.Decimal.Binary
import PerfGate.Decimal.Shortest
import PerfGate.Decimal.Style
import PerfGate.Fault
import PerfGate.Json.Decoder
import PerfGate.Json.Document
import PerfGate.Json.Printer
import PerfGate.Json.Reader
import PerfGate.Json.Value
import PerfGate.Machine.Dialogue
import PerfGate.Machine.Directories
import PerfGate.Machine.Request
import PerfGate.Measurement.Sample
import PerfGate.Measurement.Simulation
import PerfGate.Measurement.Statistics
import PerfGate.Measurement.Summary
import PerfGate.Measurement.Trial
import PerfGate.Notice
import PerfGate.Path
import PerfGate.Report.Refresh
import PerfGate.Report.Table
import PerfGate.Report.Validation
import PerfGate.Results.Category
import PerfGate.Results.Findings
import PerfGate.Results.Grouping
import PerfGate.Results.Pairing
import PerfGate.Results.Row
import PerfGate.Results.Scale
import PerfGate.ResultsFile
import PerfGate.Session
import PerfGate.Text.Alphabetic
import PerfGate.Text.Blank
import PerfGate.Text.LetterCase
import PerfGate.Text.Pattern
import PerfGate.Text.Quoted
import PerfGate.Text.Ranges
import PerfGate.Text.Terminal
import PerfGate.Text.Thousands
import PerfGate.Text.TitleCase
import PerfGate.Text.Visible
import PerfGate.Toml.Lexical
import PerfGate.Toml.Reader
import PerfGate.Toml.Value
import PerfGate.Verdict.Assessment
import PerfGate.Verdict.Classification
import PerfGate.Verdict.Comparison
import PerfGate.Workspace.Basic
import PerfGate.Workspace.Formatting
import PerfGate.Workspace.Launch
import PerfGate.Workspace.Octets
import PerfGate.Workspace.Process
import PerfGate.Workspace.Regular
import PerfGate.Workspace.Script.Builtin.Control
import PerfGate.Workspace.Script.Builtin.Surroundings
import PerfGate.Workspace.Script.Builtin.Variables
import PerfGate.Workspace.Script.Builtin.Words
import PerfGate.Workspace.Script.Condition
import PerfGate.Workspace.Script.Execution
import PerfGate.Workspace.Script.Expansion
import PerfGate.Workspace.Script.Grammar
import PerfGate.Workspace.Script.Interpreter
import PerfGate.Workspace.Script.Lookup
import PerfGate.Workspace.Script.Printing
import PerfGate.Workspace.Script.Reader
import PerfGate.Workspace.Script.Shell
import PerfGate.Workspace.Script.Streams
import PerfGate.Workspace.Script.Subshell
import PerfGate.Workspace.Script.Sum
import PerfGate.Workspace.Script.Syntax
import PerfGate.Workspace.Tree
import PerfGate.Workspace.Utility.Files
import PerfGate.Workspace.Utility.Numbers
import PerfGate.Workspace.Utility.Options
import PerfGate.Workspace.Utility.Search
import PerfGate.Workspace.Utility.Starting
import PerfGate.Workspace.Utility.Texts
import PerfGate.Workspace.Wildcard
import PerfGate.Main
import PerfGate.Proofs.Attempts
import PerfGate.Proofs.Machine.Conduct
import PerfGate.Proofs.Number.Order
import PerfGate.Proofs.Number.TotalOrder
import PerfGate.Proofs.Text.Ending
import PerfGate.Proofs.Measurement.Trials
import PerfGate.Proofs.Commands.Measuring
import PerfGate.Proofs.Commands.Finishing
import PerfGate.Proofs.Commands.Gate
import PerfGate.Proofs.Verdict.Batch
import PerfGate.Proofs.Results.Join
import PerfGate.Proofs.Number.Grid
import PerfGate.Proofs.Number.Rounding
import PerfGate.Proofs.Number.Exact
import PerfGate.Proofs.Number.Arithmetic
import PerfGate.Proofs.Number.Defined
import PerfGate.Proofs.Measurement.Ascending
import PerfGate.Proofs.Measurement.Bounds
import PerfGate.Proofs.Number.Sign
import PerfGate.Proofs.Verdict.Classes
import PerfGate.Proofs.Measurement.Simulated
import PerfGate.Proofs.Session.Invariant
import PerfGate.Proofs.Results.Groups
import PerfGate.Proofs.Results.Scaling
import PerfGate.Proofs.Results.Findings
import PerfGate.Proofs.Verdict.Loosening
import PerfGate.Proofs.Commands.Reporting
import PerfGate.Proofs.Commands.Running
import PerfGate.Proofs.Text.Erasure
import PerfGate.Proofs.Text.Figures
import PerfGate.Proofs.Text.Lines
import PerfGate.Proofs.Report.Outline
import PerfGate.Proofs.Report.Shown
import PerfGate.Proofs.Toml.Distinct
import PerfGate.Proofs.Config.Partial
import PerfGate.Proofs.Json.Spelling
import PerfGate.Proofs.Json.Reading
import PerfGate.Proofs.Json.Records
import PerfGate.Proofs.Json.Values
import PerfGate.Proofs.Baseline.Documents
import PerfGate.Proofs.Baseline.Layout
import PerfGate.Proofs.Json.Printing
import PerfGate.Proofs.Number.Scientific
import PerfGate.Proofs.Decimal.Shortest
import PerfGate.Proofs.Json.Numerals
import PerfGate.Proofs.Json.Quick
import PerfGate.Proofs.Json.Presenting
import PerfGate.Proofs.Number.Error
import PerfGate.Proofs.Results.Listing
import PerfGate.Proofs.Results.Recorded
import PerfGate.Proofs.Number.Monotone
import PerfGate.Proofs.Number.Root
import PerfGate.Proofs.Commands.Overriding
import PerfGate.Proofs.Commands.Reduction
import PerfGate.Proofs.Results.Averages
import PerfGate.Proofs.Measurement.Finiteness
import PerfGate.Proofs.Number.Neighbours
import PerfGate.Proofs.Number.WholePart
import PerfGate.Proofs.Verdict.Slower
import PerfGate.Proofs.Verdict.Alarms
import PerfGate.Proofs.Measurement.Rank
import PerfGate.Proofs.Commands.Passing
import PerfGate.Proofs.Number.Zeros
import PerfGate.Proofs.Measurement.OrderStatistics
import PerfGate.Proofs.Measurement.Copies
import PerfGate.Proofs.Results.Savings
import PerfGate.Proofs.Results.Reordered
import PerfGate.Proofs.Results.Shuffled
import PerfGate.Proofs.Results.Scenarios
import PerfGate.Proofs.Report.Cells
import PerfGate.Proofs.Report.Operations
import PerfGate.Proofs.Measurement.Draws
import PerfGate.Proofs.Results.Naming
import PerfGate.Proofs.Calendar.Succession
import PerfGate.Proofs.Calendar.Stamps
import PerfGate.Proofs.CommandLine.Workloads
import PerfGate.Proofs.Number.Truncation
import PerfGate.Proofs.Measurement.Percentiles
import PerfGate.Proofs.Text.Thousands
import PerfGate.Proofs.Text.Titles
import PerfGate.Proofs.Workspace.Octets
import PerfGate.Proofs.Workspace.Tree
import PerfGate.Proofs.Workspace.Paths
import PerfGate.Proofs.Workspace.Files
import PerfGate.Proofs.Workspace.Rehearsal
import PerfGate.Proofs.Workspace.Wildcards
import PerfGate.Proofs.Workspace.Fitting
