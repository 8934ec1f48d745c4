import PseudoVm.Cli.Arguments
import PseudoVm.Cli.Debug
import PseudoVm.Cli.Golden
import PseudoVm.Cli.Host
import PseudoVm.Cli.Program
import PseudoVm.Cli.Run
import PseudoVm.Config.Error
import PseudoVm.Config.Layer
import PseudoVm.Config.Settings
import PseudoVm.Debugger.Basic
import PseudoVm.Debugger.Command
import PseudoVm.Debugger.Execute
import PseudoVm.Debugger.History
import PseudoVm.Image.Address
import PseudoVm.Image.Basic
import PseudoVm.Image.Builder
import PseudoVm.Image.Codec
import PseudoVm.Image.Listing
import PseudoVm.Image.Validation
import PseudoVm.Json.Basic
import PseudoVm.Json.Parser
import PseudoVm.Json.Printer
import PseudoVm.Library.Arguments
import PseudoVm.Library.Basic
import PseudoVm.Library.Call
import PseudoVm.Library.Dialogue
import PseudoVm.Library.Files
import PseudoVm.Library.Math
import PseudoVm.Library.Strings
import PseudoVm.Machine.Basic
import PseudoVm.Machine.Evaluate
import PseudoVm.Machine.Frame
import PseudoVm.Machine.Operators
import PseudoVm.Machine.Step
import PseudoVm.Machine.Storage
import PseudoVm.Machine.Trace
import PseudoVm.Main
import PseudoVm.Number.Bounds
import PseudoVm.Number.Dyadic
import PseudoVm.Number.Grouped
import PseudoVm.Number.Numeral
import PseudoVm.Number.Power
import PseudoVm.Number.Random
import PseudoVm.Number.RealText
import PseudoVm.Number.Shortest
import PseudoVm.Session.Basic
import PseudoVm.Session.Burst
import PseudoVm.Session.Control
import PseudoVm.Session.Inspect
import PseudoVm.Session.LineTable
import PseudoVm.Session.Stepping
import PseudoVm.Text.Blank
import PseudoVm.Text.Cased
import PseudoVm.Text.Escaped
import PseudoVm.Text.Grapheme
import PseudoVm.Text.GraphemeClass
import PseudoVm.Text.Lines
import PseudoVm.Text.LowerCase
import PseudoVm.Text.Printable
import PseudoVm.Text.Quoted
import PseudoVm.Text.Ranges
import PseudoVm.Text.Utf8
import PseudoVm.Toml.Basic
import PseudoVm.Toml.Moment
import PseudoVm.Toml.Parser
import PseudoVm.Value.Basic
import PseudoVm.Value.Fault
import PseudoVm.Value.Traversal
import PseudoVm.World.Basic
import PseudoVm.World.Console
import PseudoVm.World.Disk
import PseudoVm.World.PathName
import PseudoVm.World.Release
import PseudoVm.Proofs.Library.Faults
import PseudoVm.Proofs.Library.Substrings
import PseudoVm.Proofs.Library.IntegerText
import PseudoVm.Proofs.Library.GroupedFormats
import PseudoVm.Proofs.Machine.Compositional
import PseudoVm.Proofs.Machine.Steady
import PseudoVm.Proofs.Image.WellFormed
import PseudoVm.Proofs.Image.DisplayAddress
import PseudoVm.Proofs.Machine.Transition
import PseudoVm.Proofs.Machine.StackShape
import PseudoVm.Proofs.Image.ListingDefined
import PseudoVm.Proofs.Machine.TableSafety
import PseudoVm.Proofs.Machine.Runs
import PseudoVm.Proofs.Session.Schedule
import PseudoVm.Proofs.Session.Transparency
import PseudoVm.Proofs.Session.StopPoint
import PseudoVm.Proofs.Machine.CallReturn
import PseudoVm.Proofs.World.ReleaseSafety
import PseudoVm.Proofs.Machine.FailedStep
import PseudoVm.Proofs.Machine.SlotSafety
import PseudoVm.Proofs.Session.Lifecycle
import PseudoVm.Proofs.Session.Interleaving
import PseudoVm.Proofs.Session.PendingStep
import PseudoVm.Proofs.Session.TerminateReport
import PseudoVm.Proofs.Session.HaltWaits
import PseudoVm.Proofs.Image.CodecRoundTrip
import PseudoVm.Proofs.Text.Utf8RoundTrip
import PseudoVm.Proofs.World.DiskWrites
import PseudoVm.Proofs.Number.Spelling
import PseudoVm.Proofs.Text.PrintableAscii
import PseudoVm.Proofs.Text.QuotedGrammar
import PseudoVm.Proofs.Library.FileText
import PseudoVm.Proofs.Library.FileRoundTrip
import PseudoVm.Proofs.Session.FreshStart
import PseudoVm.Proofs.Machine.Indoors
import PseudoVm.Proofs.Text.RecordedLines
import PseudoVm.Proofs.Machine.Replay
import PseudoVm.Proofs.World.Siblings
import PseudoVm.Proofs.Cli.GoldenReplay
import PseudoVm.Proofs.Image.BuildRecord
import PseudoVm.Proofs.Image.BuildStep
import PseudoVm.Proofs.Image.BuildResult
import PseudoVm.Proofs.Image.BuiltIndices
import PseudoVm.Proofs.Session.StepLanding
import PseudoVm.Proofs.Machine.CallSites
import PseudoVm.Proofs.Machine.TraceEntries
import PseudoVm.Proofs.Machine.EvaluationTrace
import PseudoVm.Proofs.Machine.DeadReference
import PseudoVm.Proofs.World.Unused
import PseudoVm.Proofs.Value.Growth
import PseudoVm.Proofs.Value.Graft
import PseudoVm.Proofs.World.GraftedRelease
import PseudoVm.Proofs.World.GrownHeap
import PseudoVm.Proofs.Library.Identities
import PseudoVm.Proofs.Machine.Identities
import PseudoVm.Proofs.Machine.Allotment
import PseudoVm.Proofs.Machine.GraftedRun
import PseudoVm.Proofs.Machine.Intact
import PseudoVm.Proofs.Machine.QuietEvaluation
import PseudoVm.Proofs.Value.Nesting
import PseudoVm.Proofs.Value.Copies
import PseudoVm.Proofs.Machine.ArrayClone
import PseudoVm.Proofs.Machine.Locations
import PseudoVm.Proofs.Library.Prompts
import PseudoVm.Proofs.Library.Reprompts
import PseudoVm.Proofs.Machine.StopReasons
import PseudoVm.Proofs.Session.Ceiling
import PseudoVm.Proofs.Value.Equality
import PseudoVm.Proofs.Machine.Operands
import PseudoVm.Proofs.Machine.IntegerOperators
import PseudoVm.Proofs.Machine.CountedLoops
import PseudoVm.Proofs.Machine.Restart
import PseudoVm.Proofs.Session.LineBinding
import PseudoVm.Proofs.Debugger.Agreement
import PseudoVm.Proofs.World.Ancestors
import PseudoVm.Proofs.Config.Variables
import PseudoVm.Proofs.Config.Precedence
import PseudoVm.Proofs.Text.LineEndings
import PseudoVm.Proofs.Machine.ReadAhead
import PseudoVm.Proofs.Cli.InputFile
