/-
Multistage.Stage.Solution — solution of one stage problem.
-/
import Multistage.Cut.Basic
import Multistage.Named
import Multistage.Value.Shown

namespace Multistage

/-- What a stage problem reports for one incoming state and scenario.
`objective` adds the approximated value of the stages to come to the stage's
own objective; `duals` are its derivatives in the incoming state. -/
structure StageSolution (α : Type) where
  objective : α
  stageObjective : α
  duals : List α
  state : Point α
  values : Named α := []

namespace StageSolution

/-- The one-line description of a solution, from its figures as they were
given: the objectives with six significant digits, the state rounded to six
places. -/
def describe (objective stageObjective : Value) (state : Tensor Float) : Except Failure String := do
  let rounded := state.toValue fun x => .float (Decimal.roundSix x)
  return "StageSolution(objective=" ++ (← objective.general 6) ++ ", stage_objective=" ++
    (← stageObjective.general 6) ++ ", state=" ++ rounded.text ++ ")"

end StageSolution

end Multistage
