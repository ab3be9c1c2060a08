import Workflow.Definition.Encode
import Workflow.Main
import Workflow.Proofs.Execution.FanOut
import Workflow.Proofs.Execution.Turn
import Workflow.Proofs.Execution.Settlement
import Workflow.Proofs.Execution.Run
import Workflow.Proofs.Retry.Resolve
import Workflow.Proofs.Retry.Sequence
import Workflow.Proofs.Validation.Check
import Workflow.Proofs.Validation.Stages
import Workflow.Proofs.Validation.ControlFlow
import Workflow.Proofs.Validation.Acyclic
import Workflow.Proofs.Validation.Nested
import Workflow.Proofs.Validation.Reachability
import Workflow.Proofs.Context
import Workflow.Proofs.Execution.Recovery
import Workflow.Proofs.Execution.Course
import Workflow.Proofs.Execution.Lineage
import Workflow.Proofs.Execution.Cancellation
import Workflow.Proofs.Execution.Process
import Workflow.Proofs.Execution.Protocol
import Workflow.Proofs.Execution.Containment
import Workflow.Proofs.Execution.Drift
import Workflow.Proofs.Execution.History
import Workflow.Proofs.Execution.Trail
import Workflow.Proofs.Execution.Iterations
import Workflow.Proofs.Validation.Provenance
import Workflow.Proofs.Validation.Expressions
import Workflow.Proofs.Path.Step
import Workflow.Proofs.Path.Inject
import Workflow.Proofs.Path.Writable
import Workflow.Proofs.Path.Spelling
import Workflow.Proofs.Path.Enumeration
import Workflow.Proofs.Path.Writing
import Workflow.Proofs.Path.Word
import Workflow.Proofs.Intrinsic.Grammar
import Workflow.Proofs.Intrinsic.Integer
import Workflow.Proofs.Intrinsic.Literal
import Workflow.Proofs.Intrinsic.Format
import Workflow.Proofs.Intrinsic.PathArgument
import Workflow.Proofs.Intrinsic.Printing
import Workflow.Proofs.Intrinsic.Range
import Workflow.Proofs.Intrinsic.Determined
import Workflow.Proofs.Json.Fields
import Workflow.Proofs.Text.Reader
import Workflow.Proofs.Text.Quotes
import Workflow.Proofs.Text.Order
import Workflow.Proofs.Json.Strings
import Workflow.Proofs.Decimal.Finite
import Workflow.Proofs.Decimal.Nearest
import Workflow.Proofs.Decimal.Whole
import Workflow.Proofs.Json.Parts
import Workflow.Proofs.Json.Number
import Workflow.Proofs.Json.Reader
import Workflow.Proofs.Json.RoundTrip
import Workflow.Proofs.Datum.Json
import Workflow.Proofs.Datum.Reading
import Workflow.Proofs.Datum.Record
import Workflow.Proofs.Datum.Restore
import Workflow.Proofs.Choice.Rule
import Workflow.Proofs.Choice.Operators
import Workflow.Proofs.Choice.Glob
import Workflow.Proofs.Choice.Numeric
import Workflow.Proofs.Template
import Workflow.Proofs.Template.Pointwise
import Workflow.Proofs.Template.Sources
import Workflow.Proofs.Definition.Parts
import Workflow.Proofs.Definition.States
import Workflow.Proofs.Definition.RoundTrip
import Workflow.Proofs.Definition.PassResult
import Workflow.Proofs.Execution.Conservation
import Workflow.Proofs.Execution.Escalation
import Workflow.Proofs.Execution.Reading
import Workflow.Proofs.Execution.Surroundings
import Workflow.Proofs.Execution.Token
import Workflow.Proofs.Execution.Tariff
import Workflow.Proofs.Execution.Payment
import Workflow.Proofs.Execution.Once
import Workflow.Proofs.Execution.Termination
import Workflow.Proofs.Execution.Batch
import Workflow.Proofs.Cli.Runs
