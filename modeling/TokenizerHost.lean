import TokenizerHost.CharTokenizer
import TokenizerHost.Main
import TokenizerHost.SampleGuest
import TokenizerHost.Script.Guest
import TokenizerHost.Proofs.Table.Consistency
import TokenizerHost.Proofs.Table.Reuse
import TokenizerHost.Proofs.Run.Action
import TokenizerHost.Proofs.Run.Steps
import TokenizerHost.Proofs.Run.Calls
import TokenizerHost.Proofs.Run.Moment
import TokenizerHost.Proofs.Run.Accounting
import TokenizerHost.Proofs.Run.Exit
import TokenizerHost.Proofs.Run.Dispatch
import TokenizerHost.Proofs.Run.Frames
import TokenizerHost.Proofs.Run.Session
import TokenizerHost.Proofs.Run.Situation
import TokenizerHost.Proofs.Run.Balance
import TokenizerHost.Proofs.Run.Opening
import TokenizerHost.Proofs.Run.Timers
import TokenizerHost.Proofs.Run.Stranded
import TokenizerHost.Proofs.Run.Canceled
import TokenizerHost.Proofs.Heap.Objects
import TokenizerHost.Proofs.Memory.Bytes
import TokenizerHost.Proofs.Run.Native
import TokenizerHost.Proofs.Import.Operands
import TokenizerHost.Proofs.Import.Outcome
import TokenizerHost.Proofs.Import.Footprint
import TokenizerHost.Proofs.Run.Callbacks
import TokenizerHost.Proofs.Run.Marshalling
import TokenizerHost.Proofs.Heap.Circles
import TokenizerHost.Proofs.Import.Texts
import TokenizerHost.Proofs.Run.Unwinding
import TokenizerHost.Proofs.Heap.Growth
import TokenizerHost.Proofs.Run.Wording
import TokenizerHost.Proofs.Memory.Layout
import TokenizerHost.Proofs.Console.Lines
import TokenizerHost.Proofs.Run.Reports
import TokenizerHost.Proofs.Heap.Limits
import TokenizerHost.Proofs.Run.Limits
import TokenizerHost.Proofs.Analyzer.Batches
import TokenizerHost.Proofs.Config.Linking
import TokenizerHost.Proofs.Toml.Keys
import TokenizerHost.Proofs.Toml.Merging
import TokenizerHost.Proofs.Toml.Paths
import TokenizerHost.Proofs.Toml.Readers
import TokenizerHost.Proofs.Toml.Fuel
import TokenizerHost.Proofs.Config.Fields
import TokenizerHost.Proofs.Config.Layering
import TokenizerHost.Proofs.Config.Defaults
import TokenizerHost.Proofs.Config.Overrides
import TokenizerHost.Proofs.Config.Precedence
import TokenizerHost.Proofs.Config.Conversion
import TokenizerHost.Proofs.Text.Lines
import TokenizerHost.Proofs.Toml.Comments
import TokenizerHost.Proofs.Config.Header
import TokenizerHost.Proofs.Analyzer.Words
import TokenizerHost.Proofs.Run.Firing
import TokenizerHost.Proofs.Run.Serving
import TokenizerHost.Proofs.Run.Events
import TokenizerHost.Proofs.Run.Numbering
import TokenizerHost.Proofs.Import.Leaks
import TokenizerHost.Proofs.Memory.Slots
import TokenizerHost.Proofs.Heap.Indices
import TokenizerHost.Proofs.Heap.Arrays
import TokenizerHost.Proofs.Import.Copies
import TokenizerHost.Proofs.Heap.Units
import TokenizerHost.Proofs.Console.Completion
import TokenizerHost.Proofs.Memory.Arguments
import TokenizerHost.Proofs.Memory.Accessors
import TokenizerHost.Proofs.Double.Value
import TokenizerHost.Proofs.Analyzer.Integers
import TokenizerHost.Proofs.Analyzer.Tokens
import TokenizerHost.Proofs.Analyzer.Features
import TokenizerHost.Proofs.Text.Decimal
import TokenizerHost.Proofs.Text.Numeral
import TokenizerHost.Proofs.Json.Records
import TokenizerHost.Proofs.Json.Texts
import TokenizerHost.Proofs.Json.Reading
import TokenizerHost.Proofs.Analyzer.Wire
import TokenizerHost.Proofs.Run.Terminal
