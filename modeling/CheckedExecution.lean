import CheckedExecution.Main
import CheckedExecution.Range
import CheckedExecution.Session.Call
import CheckedExecution.Signal.Loop
import CheckedExecution.Proofs.Arithmetic.Division
import CheckedExecution.Proofs.Arithmetic.Evaluation
import CheckedExecution.Proofs.Arithmetic.Expression
import CheckedExecution.Proofs.Arithmetic.Recombination
import CheckedExecution.Proofs.Arithmetic.Widening
import CheckedExecution.Proofs.Cast.Constant
import CheckedExecution.Proofs.Cast.Policies
import CheckedExecution.Proofs.Cast.Saturation
import CheckedExecution.Proofs.Cast.Truncation
import CheckedExecution.Proofs.Entry.Result
import CheckedExecution.Proofs.Execution.InOrder
import CheckedExecution.Proofs.Execution.Unlogged
import CheckedExecution.Proofs.Files.Locations
import CheckedExecution.Proofs.FixedInt.Codec
import CheckedExecution.Proofs.FixedInt.Consecutive
import CheckedExecution.Proofs.FixedInt.Grammar
import CheckedExecution.Proofs.FixedInt.Literal
import CheckedExecution.Proofs.FixedInt.Shift
import CheckedExecution.Proofs.Json.Document
import CheckedExecution.Proofs.Json.Escape
import CheckedExecution.Proofs.Json.Numeral
import CheckedExecution.Proofs.Json.Spelling
import CheckedExecution.Proofs.Program.Calculation
import CheckedExecution.Proofs.Program.Kept
import CheckedExecution.Proofs.Program.Mode
import CheckedExecution.Proofs.Program.Persistence
import CheckedExecution.Proofs.Program.Seen
import CheckedExecution.Proofs.Range.Concatenation
import CheckedExecution.Proofs.Range.Items
import CheckedExecution.Proofs.Session.FirstUse
import CheckedExecution.Proofs.Session.FunctionBody
import CheckedExecution.Proofs.Session.Message
import CheckedExecution.Proofs.Session.Refinement
import CheckedExecution.Proofs.Session.Use
import CheckedExecution.Proofs.Settings.Layers
import CheckedExecution.Proofs.Settings.Schema
import CheckedExecution.Proofs.Settings.Search
import CheckedExecution.Proofs.Settings.Spelling
import CheckedExecution.Proofs.Signal.Grid
import CheckedExecution.Proofs.Signal.Loop
import CheckedExecution.Proofs.Supervisor.Diagnosis
import CheckedExecution.Proofs.Supervisor.Modes
import CheckedExecution.Proofs.Text.Lossy
import CheckedExecution.Proofs.Text.Utf8
