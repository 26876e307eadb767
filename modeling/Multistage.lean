import Multistage.Binary64.Exact
import Multistage.Cut.Basic
import Multistage.Cut.Dominance
import Multistage.Cut.Reading
import Multistage.Cut.Store
import Multistage.Decimal.Numeral
import Multistage.Decimal.Places
import Multistage.Decimal.Shortest
import Multistage.Failure
import Multistage.Grid
import Multistage.LP.Elimination
import Multistage.LP.Presolve
import Multistage.LP.Program
import Multistage.LP.Reading
import Multistage.LP.Result
import Multistage.LP.Screening
import Multistage.LP.Simplex
import Multistage.LP.Solve
import Multistage.LP.Split
import Multistage.LP.Unconstrained
import Multistage.Model.Basic
import Multistage.Model.Blueprint
import Multistage.Model.Figures
import Multistage.Model.Reading
import Multistage.Named
import Multistage.Policy.Backward
import Multistage.Policy.Bound
import Multistage.Policy.Forward
import Multistage.Policy.Simulation
import Multistage.Policy.Trajectory
import Multistage.Random.Draws
import Multistage.Random.Generator
import Multistage.Random.Sampling
import Multistage.Report.Table
import Multistage.Risk.Batch
import Multistage.Risk.Measure
import Multistage.Risk.Reweight
import Multistage.Risk.TailArray
import Multistage.Round.Coordinator
import Multistage.Round.Merge
import Multistage.Round.Pool
import Multistage.Round.Schedule
import Multistage.Round.Share
import Multistage.Round.Worker
import Multistage.Scalar
import Multistage.Sense
import Multistage.Stage.Closed
import Multistage.Stage.Linear
import Multistage.Stage.Problem
import Multistage.Stage.Reading
import Multistage.Stage.Solution
import Multistage.Statistics.Interval
import Multistage.Statistics.Pairwise
import Multistage.Statistics.StudentT
import Multistage.Tensor
import Multistage.Text.Blank
import Multistage.Text.Case
import Multistage.Text.Cased
import Multistage.Text.Digit
import Multistage.Text.Printable
import Multistage.Text.Quoted
import Multistage.Training.Logging
import Multistage.Training.Options
import Multistage.Training.Result
import Multistage.Training.Run
import Multistage.Value.Basic
import Multistage.Value.Convert
import Multistage.Value.Number
import Multistage.Value.Periodic
import Multistage.Value.Shown
import Multistage.Value.Template
import Multistage.Value.Unified
import Multistage.Proofs.Binary64.Arithmetic
import Multistage.Proofs.Binary64.Nearest
import Multistage.Proofs.Binary64.Order
import Multistage.Proofs.Binary64.Reading
import Multistage.Proofs.Binary64.Rounded
import Multistage.Proofs.Binary64.Rounding
import Multistage.Proofs.Binary64.Sign
import Multistage.Proofs.Binary64.Value
import Multistage.Proofs.Cut.Join
import Multistage.Proofs.Cut.LevelOne
import Multistage.Proofs.Cut.Order
import Multistage.Proofs.Cut.Session
import Multistage.Proofs.Cut.Union
import Multistage.Proofs.Exact
import Multistage.Proofs.Except
import Multistage.Proofs.Extended
import Multistage.Proofs.Grid
import Multistage.Proofs.LP.DualProgram
import Multistage.Proofs.LP.Duality
import Multistage.Proofs.LP.Feasible
import Multistage.Proofs.LP.Limits
import Multistage.Proofs.LP.Posed
import Multistage.Proofs.LP.Recovery
import Multistage.Proofs.LP.Splitting
import Multistage.Proofs.Mirror.Arithmetic
import Multistage.Proofs.Mirror.Cut
import Multistage.Proofs.Mirror.Figures
import Multistage.Proofs.Mirror.Program
import Multistage.Proofs.Model.Construction
import Multistage.Proofs.Model.Snapshot
import Multistage.Proofs.Model.Tables
import Multistage.Proofs.Monotone
import Multistage.Proofs.Named
import Multistage.Proofs.Policy.Bound
import Multistage.Proofs.Policy.BoundOrder
import Multistage.Proofs.Policy.Children
import Multistage.Proofs.Policy.CommonNumbers
import Multistage.Proofs.Policy.Evaluation
import Multistage.Proofs.Policy.FirstStage
import Multistage.Proofs.Policy.FutureValue
import Multistage.Proofs.Policy.Linear
import Multistage.Proofs.Policy.Pass
import Multistage.Proofs.Policy.Possible
import Multistage.Proofs.Policy.Simulation
import Multistage.Proofs.Policy.Soundness
import Multistage.Proofs.Policy.Trajectory
import Multistage.Proofs.Random.Sampling
import Multistage.Proofs.Report.InPlace
import Multistage.Proofs.Report.Table
import Multistage.Proofs.Risk.Extremal
import Multistage.Proofs.Risk.Functional
import Multistage.Proofs.Risk.Reweight
import Multistage.Proofs.Risk.Scratch
import Multistage.Proofs.Risk.Shapes
import Multistage.Proofs.Risk.Staged
import Multistage.Proofs.Risk.Support
import Multistage.Proofs.Risk.Validation
import Multistage.Proofs.Round.Atomicity
import Multistage.Proofs.Round.Calls
import Multistage.Proofs.Round.Conservation
import Multistage.Proofs.Round.Dimension
import Multistage.Proofs.Round.Envelope
import Multistage.Proofs.Round.Evaluation
import Multistage.Proofs.Round.Growth
import Multistage.Proofs.Round.Monotone
import Multistage.Proofs.Round.Passes
import Multistage.Proofs.Round.Quota
import Multistage.Proofs.Round.Reachable
import Multistage.Proofs.Round.Rebuild
import Multistage.Proofs.Round.Scheduling
import Multistage.Proofs.Round.Seeds
import Multistage.Proofs.Round.Share
import Multistage.Proofs.Round.Soundness
import Multistage.Proofs.Round.Union
import Multistage.Proofs.Stage.Encoding
import Multistage.Proofs.Stage.Problem
import Multistage.Proofs.Stage.Scatter
import Multistage.Proofs.Stage.Subgradient
import Multistage.Proofs.Stage.WellFormed
import Multistage.Proofs.Tensor
import Multistage.Proofs.Training.Accepted
import Multistage.Proofs.Training.Course
import Multistage.Proofs.Training.Soundness
import Multistage.Proofs.Training.Stopping
import Multistage.Proofs.Transition
