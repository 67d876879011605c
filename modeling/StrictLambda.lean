import StrictLambda.Block.Basic
import StrictLambda.Block.Locals
import StrictLambda.Block.OfTerm
import StrictLambda.Block.Printer
import StrictLambda.Declaration
import StrictLambda.Failure
import StrictLambda.Literal
import StrictLambda.Machine.Basic
import StrictLambda.Machine.Fuel
import StrictLambda.Machine.Stack
import StrictLambda.Machine.Step
import StrictLambda.Name
import StrictLambda.Operation
import StrictLambda.Program.Basic
import StrictLambda.Program.OfBlock
import StrictLambda.Program.OfTerm
import StrictLambda.Program.Printer
import StrictLambda.Proofs.Block.Failures
import StrictLambda.Proofs.Block.Interpreter
import StrictLambda.Proofs.Block.Steps
import StrictLambda.Proofs.Block.Values
import StrictLambda.Proofs.Builder.Acceptance
import StrictLambda.Proofs.Builder.Calls
import StrictLambda.Proofs.Builder.Construction
import StrictLambda.Proofs.Builder.Control
import StrictLambda.Proofs.Builder.Correctness
import StrictLambda.Proofs.Builder.Correspondence
import StrictLambda.Proofs.Builder.Labels
import StrictLambda.Proofs.Builder.Nodes
import StrictLambda.Proofs.Builder.Safety
import StrictLambda.Proofs.Builder.Shape
import StrictLambda.Proofs.Builder.Simulation
import StrictLambda.Proofs.Builder.StackDepth
import StrictLambda.Proofs.Builder.Stages
import StrictLambda.Proofs.Builder.Visibility
import StrictLambda.Proofs.Execution.Bind
import StrictLambda.Proofs.Execution.Duration
import StrictLambda.Proofs.Execution.Expansion
import StrictLambda.Proofs.Execution.Machine
import StrictLambda.Proofs.Execution.Peak
import StrictLambda.Proofs.Execution.Performance
import StrictLambda.Proofs.Execution.Process
import StrictLambda.Proofs.Execution.Sessions
import StrictLambda.Proofs.Execution.Slices
import StrictLambda.Proofs.Layout.Acceptance
import StrictLambda.Proofs.Layout.Bodies
import StrictLambda.Proofs.Layout.Correctness
import StrictLambda.Proofs.Layout.Entrances
import StrictLambda.Proofs.Layout.Frames
import StrictLambda.Proofs.Layout.Heights
import StrictLambda.Proofs.Layout.Placement
import StrictLambda.Proofs.Layout.Representation
import StrictLambda.Proofs.Layout.Safety
import StrictLambda.Proofs.Layout.Simulation
import StrictLambda.Proofs.Layout.Sizes
import StrictLambda.Proofs.Layout.Soundness
import StrictLambda.Proofs.Layout.Tiling
import StrictLambda.Proofs.Machine.Failures
import StrictLambda.Proofs.Machine.Steps
import StrictLambda.Proofs.Machine.Values
import StrictLambda.Proofs.Snapshot.Code
import StrictLambda.Proofs.Snapshot.Solid
import StrictLambda.Proofs.Snapshot.Unfolding
import StrictLambda.Proofs.TailCalls.Correctness
import StrictLambda.Proofs.TailCalls.Forwarding
import StrictLambda.Proofs.TailCalls.Returning
import StrictLambda.Proofs.TailCalls.Unrolling
import StrictLambda.Proofs.Term.Depth
import StrictLambda.Proofs.Term.Evaluator
import StrictLambda.Proofs.Term.Scope
import StrictLambda.Proofs.Term.Starts
import StrictLambda.Proofs.Term.Store
import StrictLambda.Proofs.Term.Visibility
import StrictLambda.Proofs.Value.Map
import StrictLambda.Proofs.Value.Parts
import StrictLambda.Register
import StrictLambda.Snapshot.Assembly
import StrictLambda.Snapshot.Basic
import StrictLambda.Snapshot.Equality
import StrictLambda.Snapshot.OfValue
import StrictLambda.Snapshot.Printer
import StrictLambda.Snapshot.Token
import StrictLambda.Span
import StrictLambda.Term.Basic
import StrictLambda.Term.FreeVariables
import StrictLambda.Value.Arithmetic
import StrictLambda.Value.Basic
import StrictLambda.Value.Cells
import StrictLambda.Value.Data
import StrictLambda.Value.Expect
import StrictLambda.Value.Printer
import StrictLambda.Proofs.Machine.FrameChain
import StrictLambda.Proofs.Builder.Completeness
import StrictLambda.Proofs.Machine.Calls
import StrictLambda.Proofs.Layout.Tables
import StrictLambda.Proofs.Layout.Arrangement
import StrictLambda.Proofs.Machine.Cells
import StrictLambda.Proofs.Snapshot.Fields
import StrictLambda.Proofs.Machine.DataValues
import StrictLambda.Proofs.Layout.Relocation
import StrictLambda.Proofs.Block.Spans
import StrictLambda.Proofs.Layout.Spans
import StrictLambda.Proofs.Term.Renaming
import StrictLambda.Proofs.Builder.Renaming
import StrictLambda.Proofs.Term.Occurrences
import StrictLambda.Proofs.Layout.Defects
import StrictLambda.Proofs.Layout.Activations
import StrictLambda.Proofs.Builder.Bodies
import StrictLambda.Proofs.Builder.Jumps
import StrictLambda.Proofs.Layout.OneFrame
import StrictLambda.Proofs.Builder.Termination
import StrictLambda.Proofs.Block.Paths
import StrictLambda.Proofs.Builder.Discipline
import StrictLambda.Proofs.Machine.Faults
import StrictLambda.Proofs.Execution.FailedRuns
import StrictLambda.Proofs.Snapshot.Equality
import StrictLambda.Proofs.Snapshot.Recursion
import StrictLambda.Proofs.Snapshot.Conversion
import StrictLambda.Proofs.Term.Groups
import StrictLambda.Proofs.Block.Relays
import StrictLambda.Proofs.Layout.Relays
import StrictLambda.Proofs.Block.Fixpoints
import StrictLambda.Proofs.Block.OpenCells
import StrictLambda.Proofs.Builder.Groups
import StrictLambda.Proofs.Builder.Fixpoints
import StrictLambda.Proofs.Builder.Transparency
import StrictLambda.Proofs.Value.Arithmetic
import StrictLambda.Proofs.Snapshot.Access
import StrictLambda.Proofs.Snapshot.Walk
import StrictLambda.Proofs.Snapshot.Printing
import StrictLambda.Proofs.Text.Reading
import StrictLambda.Proofs.Snapshot.Identification
