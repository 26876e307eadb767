/-
Multistage.Stage.Reading — stage problems out of values.
-/
import Multistage.LP.Reading
import Multistage.Stage.Closed
import Multistage.Stage.Linear

namespace Multistage

namespace LinearStage

/-- The parts of a linear stage problem as values; optional parts may be
missing. -/
structure Parts where
  costs : Value
  matrix : Value
  rhs : Value
  signs : Value
  stateOut : Value
  inflow : Value := .null
  lower : Value := .null
  upper : Value := .null
  probabilities : Value := .null
  names : Value := .null
  params : Value := .null

/-- The parts by their names in a record. -/
def Parts.ofRecord (v : Value) : Parts where
  costs := v.field "c"
  matrix := v.field "A"
  rhs := v.field "b"
  signs := v.field "senses"
  stateOut := v.field "state_out"
  inflow := v.field "A_in"
  lower := v.field "lb"
  upper := v.field "ub"
  probabilities := v.field "scenario_probability"
  names := v.field "names"
  params := v.field "solver_params"

/-- A part that may be missing. -/
def optional {β : Type} (v : Value) (read : Value → Except Failure β) :
    Except Failure (Option β) :=
  v.given?.mapM read

/-- Limits of decisions. -/
def readLimits (v : Value) : Except Failure (List (Limit Float)) :=
  return (← Tensor.flatten v).map Scalar.limit

/-- A linear stage problem as a statement, with each part still to be
read. -/
def Parts.statement (p : Parts) : Statement Float where
  matrix := Tensor.ofValue p.matrix
  stateOut := return (← Tensor.indicesOfValue p.stateOut).entries
  costs := Tensor.ofValue p.costs
  rhs := Tensor.ofValue p.rhs
  probabilities := optional p.probabilities Tensor.ofValue
  inflow := optional p.inflow Tensor.ofValue
  signs := p.signs.elements
  lower := optional p.lower readLimits
  upper := optional p.upper readLimits
  names := optional p.names Value.elements
  params := Named.ofValue p.params

/-- The linear stage problem of the parts. -/
def Parts.stage (p : Parts) : Except Failure (LinearStage Float) := ofStatement p.statement

/-- The scenario that a caller asks for.  It has to be a number in range, and
then a whole one. -/
def readScenario (scenarios : Nat) (given : Value) : Except Failure Int := do
  let n ← given.number
  if n.isBelow (.whole 0) || !n.isBelow (.whole scenarios) then
    throw (.misconfigured (.scenarioOutOfRange given scenarios))
  match given, n with
  | .bool _, _ => throw (.badValue "a truth value is no index")
  | _, .whole k => return k
  | _, .real _ => throw .outOfRange

/-- The program of a stage in a situation for a caller's incoming state and
scenario.  A bound as the caller gave it is looked at only where it counts. -/
def assembleGiven (p : LinearStage Float) (s : Situation Float) (state scenario bound : Value) :
    Except Failure (Assembly Float × Point Float × Int) := do
  let x ← Tensor.flatten state
  StageProblem.checkState p.stateCount x
  let k ← readScenario s.scenarios scenario
  let a ← p.assemble s x k
  if !s.setting.final then discard (bound.given?.mapM Value.toFloat)
  return (a, x, k)

end LinearStage

namespace ClosedStage

/-- Numbers as they stand in a record. -/
def readNumbers (v : Value) : List Float := v.items.map fun a => a.toFloat.toOption.getD 0.0

/-- A scenario by the names of its parts in a record. -/
def readScenario (v : Value) : ClosedScenario Float where
  cost := readNumbers (v.field "cost")
  constant := (v.field "const").toFloat.toOption.getD 0.0
  gain := readNumbers (v.field "gain")
  add := readNumbers (v.field "add")
  failBelow := (v.field "fail_below").given?.map fun a => a.toFloat.toOption.getD 0.0
  solverFails := v.field "fail" == "solver"

/-- A closed stage by the names of its parts in a record. -/
def ofRecord (v : Value) : Except Failure (ClosedStage Float) := do
  return {
    stateCount := ← (v.field "n_states").toInt
    lower := readNumbers (v.field "lo")
    upper := readNumbers (v.field "hi")
    scenarios := (v.field "scenarios").items.map readScenario
    probabilities := ← (v.field "prob").given?.mapM Tensor.ofValue }

end ClosedStage

end Multistage
