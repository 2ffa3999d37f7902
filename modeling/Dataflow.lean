import Dataflow.Backend.Assembler
import Dataflow.Backend.Basic
import Dataflow.Backend.Recorder
import Dataflow.Code.Instruction
import Dataflow.Code.Program
import Dataflow.Code.Region
import Dataflow.CommandLine.Answer
import Dataflow.CommandLine.Arguments
import Dataflow.Compiler.Allocation
import Dataflow.Compiler.Attempt
import Dataflow.Compiler.Basic
import Dataflow.Compiler.Compile
import Dataflow.Compiler.Error
import Dataflow.Compiler.Lowering
import Dataflow.Compiler.Operand
import Dataflow.Compiler.Scope
import Dataflow.Compiler.Statistics
import Dataflow.ElementType
import Dataflow.Machine.Call
import Dataflow.Machine.Error
import Dataflow.Machine.Memory
import Dataflow.Main
import Dataflow.Model.Basic
import Dataflow.Model.Builder
import Dataflow.Model.Error
import Dataflow.Model.Parser
import Dataflow.Model.Printer
import Dataflow.Model.Shape
import Dataflow.Model.Token
import Dataflow.Number.Binary64
import Dataflow.Number.Decimal
import Dataflow.Number.Literal
import Dataflow.Operator
import Dataflow.Storage.Table
import Dataflow.Storage.Variable
import Dataflow.Text.Blank
import Dataflow.Text.Digits
import Dataflow.Text.Extender
import Dataflow.Text.Letter
import Dataflow.Text.Lines
import Dataflow.Text.Numeral
import Dataflow.Text.Printable
import Dataflow.Text.Quoted
import Dataflow.Text.Ranges
import Dataflow.Word
import Dataflow.Proofs.Region.Segment
import Dataflow.Proofs.Region.Block
import Dataflow.Proofs.Region.Refinement
import Dataflow.Proofs.Attempt
import Dataflow.Proofs.Compiler.Congruence
import Dataflow.Proofs.Backend.Alike
import Dataflow.Proofs.Merging
import Dataflow.Proofs.Failure
import Dataflow.Proofs.Backend.Checks
import Dataflow.Proofs.Backend.Progress
import Dataflow.Proofs.Compiler.Progress
import Dataflow.Proofs.Compiler.Operands
import Dataflow.Proofs.Compiler.Lowered
import Dataflow.Proofs.Compiler.Layout
import Dataflow.Proofs.Compiler.Compiled
import Dataflow.Proofs.Compiler.History
import Dataflow.Proofs.Machine.Execution
import Dataflow.Proofs.Correctness.Operands
import Dataflow.Proofs.Correctness.Nodes
import Dataflow.Proofs.Correctness.Calls
import Dataflow.Proofs.Correctness
import Dataflow.Proofs.Compiler.Invariant
import Dataflow.Proofs.Compiler.Footprint
import Dataflow.Proofs.Compiler.Soundness
import Dataflow.Proofs.Machine.Calls
import Dataflow.Proofs.Machine.Safety
import Dataflow.Proofs.Machine.Isolation
import Dataflow.Proofs.Compiler.Series
import Dataflow.Proofs.Model.Declared
import Dataflow.Proofs.Model.Readable
import Dataflow.Proofs.Model.RoundTrip
import Dataflow.Proofs.Acceptance.Exact
import Dataflow.Proofs.Acceptance.Conditions
import Dataflow.Proofs.Acceptance.Steps
import Dataflow.Proofs.Acceptance.Requirements
import Dataflow.Proofs.Acceptance.Operands
import Dataflow.Proofs.Acceptance.Nodes
import Dataflow.Proofs.Acceptance.Models
import Dataflow.Proofs.Acceptance
import Dataflow.Proofs.Acceptance.Order
import Dataflow.Proofs.Compiler.Renaming
import Dataflow.Proofs.Protocol.Script
import Dataflow.Proofs.Protocol
import Dataflow.Proofs.Compiler.Renumbering
import Dataflow.Proofs.Backend.Stacked
import Dataflow.Proofs.Independence
import Dataflow.Proofs.Storage.Accounting
import Dataflow.Proofs.Backend.History
import Dataflow.Proofs.Backend.Accounting
import Dataflow.Proofs.Compiler.Storage
import Dataflow.Proofs.Machine.Shape
import Dataflow.Proofs.Machine.Typed
import Dataflow.Proofs.Machine.Addressing
import Dataflow.Proofs.Model.Built
import Dataflow.Proofs.Model.Accepted
import Dataflow.Proofs.Model.Expressible
import Dataflow.Proofs.Model.Capacity
import Dataflow.Proofs.Acceptance.Built
import Dataflow.Proofs.Number.Reductions
import Dataflow.Proofs.Correctness.Stores
import Dataflow.Proofs.Correctness.Gathering
import Dataflow.Proofs.Model.Rewired
import Dataflow.Proofs.Correctness.Coupled
import Dataflow.Proofs.Correctness.Paired
import Dataflow.Proofs.Correctness.Cuts
import Dataflow.Proofs.Region.Grouping
import Dataflow.Proofs.Compiler.Grouping
import Dataflow.Proofs.Relaxation
import Dataflow.Proofs.Compiler.Initialised
import Dataflow.Proofs.Compiler.Assigned
import Dataflow.Proofs.Initialisation
import Dataflow.Proofs.Compiler.Contents
import Dataflow.Proofs.Compiler.Bindings
import Dataflow.Proofs.Compiler.Scoping
import Dataflow.Proofs.Model.Resolution
import Dataflow.Proofs.Model.Parsed
import Dataflow.Proofs.Region.Walk
import Dataflow.Proofs.Backend.Stepwise
import Dataflow.Proofs.Backend.Refusal
import Dataflow.Proofs.Compiler.Counting
import Dataflow.Proofs.Compiler.Balance
import Dataflow.Proofs.Session
import Dataflow.Proofs.Model.Endings
import Dataflow.Proofs.Model.Comments
