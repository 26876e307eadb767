/-
Multistage.Training.Result — outcome of a training run.

A result says why a run ended and what it reached, with one entry per round.
Its report shows the figures that it is given as they are.
-/
import Multistage.LP.Result
import Multistage.Model.Figures

namespace Multistage

/-! ## Results -/

/-- One round of a training run. -/
structure HistoryEntry (α : Type) where
  iteration : Nat
  figures : Figures α
  cutCount : Nat
  converged : Bool

/-- Why a training run ended, what it reached, and its rounds. -/
structure TrainingResult (α : Type) where
  status : String
  iterations : Nat
  figures : Figures α
  cutCount : Nat
  solveTime : α
  history : List (HistoryEntry α) := []

namespace TrainingResult

variable {α : Type}

/-- The status of a run that met its tolerance. -/
def convergedStatus : String := "converged"

/-- The status of a run that used up its rounds. -/
def maxIterationsStatus : String := "max_iterations"

/-- The status of a run that used up its time. -/
def timeLimitStatus : String := "time_limit"

/-- True of a run that met its tolerance. -/
def converged (r : TrainingResult α) : Bool := r.status = convergedStatus

end TrainingResult

/-! ## Reports -/

/-- The figures of a run that its report shows, as they were given. -/
structure TrainingReport where
  status : Value
  iterations : Value
  bound : Value
  interval : List Value
  cutCount : Value
  solveTime : Value

namespace TrainingReport

/-- The report of figures by their names in a record.  The interval has to be
a list. -/
def ofRecord (v : Value) : Except Failure TrainingReport :=
  match v.field "ci" with
  | .list interval =>
    .ok {
      status := v.field "status"
      iterations := v.field "iterations"
      bound := v.field "bound"
      interval
      cutCount := v.field "n_cuts"
      solveTime := v.field "solve_time" }
  | _ => .error .wrongKind

/-- True of a run that met its tolerance. -/
def converged (r : TrainingReport) : Bool := r.status == .string TrainingResult.convergedStatus

/-- The one-line description of a run. -/
def describe (r : TrainingReport) : String :=
  "TrainingResult(status=" ++ r.status.text ++ ", bound=" ++ r.bound.text ++ ", iterations=" ++
    r.iterations.text ++ ", n_cuts=" ++ r.cutCount.text ++ ")"

/-- An end of an interval with six significant digits; an interval without
that end has none to show. -/
def endText (interval : List Value) (k : Nat) : Except Failure String :=
  match interval[k]? with
  | some v => v.general 6
  | none => .error .outOfRange

/-- The report of a run, line by line. -/
def summary (r : TrainingReport) : Except Failure (List String) := do
  let bound ← match r.bound with
    | .null => pure "n/a"
    | v => v.general 10
  return [LP.Report.bar, "SDDP Training Summary", LP.Report.bar,
    "Status:           " ++ r.status.text,
    "Bound:            " ++ bound,
    "Confidence int.:  [" ++ (← endText r.interval 0) ++ ", " ++ (← endText r.interval 1) ++ "]",
    "Iterations:       " ++ r.iterations.text,
    "Cuts:             " ++ r.cutCount.text,
    "Solve time:       " ++ (← r.solveTime.fixed 4) ++ " s",
    LP.Report.bar]

end TrainingReport

end Multistage
