/-
Multistage.Policy.Backward — new cuts along a sampled path.

After a path has been sampled, the stages but the last are visited from the
end to the start.  At the state that the path left in a stage, all Markov
states and scenarios of the next stage, its children, are solved; every Markov
state of the stage that can reach one of them gets a cut, with the transition
probability times the scenario probability as the weight of a child.  Stages
solved later in the same pass already have the new cuts loaded.
-/
import Multistage.Policy.Trajectory

namespace Multistage

/-- A Markov state and scenario of the next stage, with its solution. -/
structure Child (α : Type) where
  markov : Nat
  scenario : Nat
  solution : StageSolution α

namespace Model

variable {α : Type} [Scalar α]

/-- The Markov states of a stage with their scenarios. -/
def outcomes (m : Model α) (t : Nat) : List (Nat × Nat) :=
  (List.range m.markovCount).flatMap fun j =>
    (List.range ((m.configuration.scenarios.get? t j).map Tensor.size |>.getD 0)).map
      fun s => (j, s)

/-- All Markov states and scenarios of a stage, solved at a state. -/
def children (m : Model α) (t : Nat) (x : Point α) : Except Failure (List (Child α)) :=
  (m.outcomes t).mapM fun (j, s) => do return ⟨j, s, ← m.solveAt t j x s⟩

/-- The weight of a child: its transition probability times its scenario
probability, which is one number in a vector of probabilities. -/
def weight (m : Model α) (t : Nat) (row : List α) (c : Child α) : Except Failure (Tensor α) := do
  match row[c.markov]?, (← m.scenarioRow (t + 1) c.markov).parts[c.scenario]? with
  | some p, some q => return q.map (p * ·)
  | _, _ => throw .outOfRange

/-- The duals of the children as one array; they have to be equally many. -/
def stackDuals (children : List (Child α)) : Except Failure (Tensor α) :=
  Tensor.stack (children.map fun c => Tensor.vector c.solution.duals)

/-- The scenario results of the children at a state, with their duals and
weights. -/
def batch (x : Point α) (children : List (Child α)) (duals weights : Tensor α) :
    Except Failure (Batch α) :=
  Batch.ofTensors (Tensor.vector x) duals
    (Tensor.vector (children.map fun c => c.solution.objective)) weights

/-- Gives the pair of stage `t` and Markov state `i` a cut at a state, unless
it reaches none of the children.  Counts the cut. -/
def addCutAt (t : Nat) (x : Point α) (children : List (Child α)) (duals : Tensor α) (i : Nat) :
    Transition (Model α) Nat := do
  let m ← get
  let row ← Transition.outcome (m.transitionRow t i)
  if row.any fun p => decide (0 < p) then
    let weights ← Transition.outcome do Tensor.stack (← children.mapM (m.weight t row))
    let cut ← onMeasure (RiskMeasure.generate (.ok m.configuration.sense)
      (batch x children duals weights) (some (.int t, .int i)))
    onStore t i (Store.append cut (some x))
    onProblem t i fun p => p.addCut cut
    return 1
  else return 0

section Counts

-- Sums are the plain ones, also where a library of algebra offers its own.
attribute [local instance (high)] Zero.ofOfNat0

/-- Gives every pair of a stage a cut at a state.  Counts the cuts. -/
def addStageCuts (t : Nat) (x : Point α) : Transition (Model α) Nat := do
  let children ← Transition.outcome ((← get).children (t + 1) x)
  let duals ← Transition.outcome (stackDuals children)
  let counts ← (List.range (← get).markovCount).mapM (addCutAt t x children duals)
  return counts.sum

/-- The stages of a path that get cuts, last stage first, each with the state
that the path left there. -/
def turns (path : Trajectory α) : List (Nat × Point α) :=
  ((path.mapIdx fun t v => (t, v.solution.state)).dropLast).reverse

/-- Adds cuts along a path.  Counts them. -/
def addCutsAlong (path : Trajectory α) : Transition (Model α) Nat := do
  let counts ← (turns path).mapM fun (t, x) => addStageCuts t x
  return counts.sum

end Counts

end Model

/-- One backward pass: samples a path and adds cuts along it.  Counts the
cuts. -/
def backwardPass {α : Type} [Scalar α] : Transition (Play α) Nat := do
  let path ← Play.sampling Model.trajectory
  Play.onModel (Model.addCutsAlong path)

end Multistage
