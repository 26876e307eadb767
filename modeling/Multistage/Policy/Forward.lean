/-
Multistage.Policy.Forward — the value of the current policy, by sampling.
-/
import Multistage.Policy.Trajectory

namespace Multistage

variable {α : Type} [Scalar α]

/-- The objectives of a path's stages, added in order. -/
def Trajectory.objective (path : Trajectory α) : α :=
  Scalar.total (path.map fun v => v.solution.stageObjective)

/-- The objectives of a number of sampled paths. -/
def Model.sampleObjectives (m : Model α) (n : Nat) : Transition (Draws α) (List α) :=
  Transition.times n do return Trajectory.objective (← m.trajectory)

end Multistage
