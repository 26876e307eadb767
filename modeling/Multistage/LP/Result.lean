/-
Multistage.LP.Result — outcome of a linear program.
-/
import Multistage.Tensor
import Multistage.Value.Shown

namespace Multistage.LP

/-- How a solve ended. -/
inductive Status where
  | optimal
  | primalInfeasible
  | dualInfeasible
  | maxIterations
  | numericalError
  | unsolved
  deriving Repr, DecidableEq

namespace Status

/-- All ways in which a solve ends. -/
def all : List Status :=
  [optimal, primalInfeasible, dualInfeasible, maxIterations, numericalError, unsolved]

/-- The name of a status. -/
def name : Status → String
  | optimal => "optimal"
  | primalInfeasible => "primal_infeasible"
  | dualInfeasible => "dual_infeasible"
  | maxIterations => "max_iterations"
  | numericalError => "numerical_error"
  | unsolved => "unsolved"

/-- The status of a name. -/
def ofName? (s : String) : Option Status := all.find? fun t => t.name = s

/-- True when an optimum was found. -/
def isSuccessful (s : Status) : Bool := s = optimal

end Status

/-- The figures of a solve that its report shows, as they were given. -/
structure Report where
  status : Status
  objective : Value
  rows : Nat
  columns : Nat
  iterations : Value
  solveTime : Value

namespace Report

/-- A rule across a report. -/
def bar : String := String.ofList (List.replicate 50 '=')

/-- The one-line description of a solve. -/
def describe (r : Report) : Except Failure String := do
  return "SolveResult(status=" ++ r.status.name ++ ", objective=" ++ (← r.objective.general 6) ++
    ", iterations=" ++ r.iterations.text ++ ", time=" ++ (← r.solveTime.fixed 4) ++ "s)"

/-- The report of a solve, line by line. -/
def summary (r : Report) : Except Failure (List String) := do
  return [bar, "LP Solve Summary", bar,
    "Status:           " ++ r.status.name,
    "Objective:        " ++ (← r.objective.general 10),
    "Iterations:       " ++ r.iterations.text,
    "Solve time:       " ++ (← r.solveTime.fixed 4) ++ " s",
    s!"Rows:             {r.rows}",
    s!"Columns:          {r.columns}",
    bar]

/-- The length of a dimension. -/
def readLength (v : Value) : Except Failure Nat :=
  match v with
  | .int (.ofNat n) => .ok n
  | .int (.negSucc _) => .error (.badValue "negative dimensions")
  | _ => .error .wrongKind

/-- A number of rows or columns, which may be the first of several lengths. -/
def readSize (v : Value) : Except Failure Nat := do
  let lengths ← match v with
    | .list vs => vs.mapM readLength
    | v => pure [← readLength v]
  if !Tensor.fitsMemory lengths then throw (.badValue "the array is too big")
  match lengths with
  | n :: _ => return n
  | [] => throw .wrongKind

/-- The report of figures as values.  The status has to have one of the known
names. -/
def ofValues (status objective rows columns iterations solveTime : Value) :
    Except Failure Report := do
  match status with
  | .string name =>
    match Status.ofName? name with
    | none => throw (.badValue "unknown status")
    | some status =>
      let columns ← readSize columns
      return { status, objective, rows := ← readSize rows, columns, iterations, solveTime }
  | _ => throw (.badValue "unknown status")

end Report

end Multistage.LP
