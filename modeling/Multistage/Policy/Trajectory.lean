/-
Multistage.Policy.Trajectory — one path through the current policy.

The first Markov state is drawn from the initial distribution, each later one
from the transition row of the one before; the scenario of a stage is drawn
from the probabilities of its stage and Markov state.  Each stage is solved at
the state that the stage before it left.
-/
import Multistage.Model.Basic
import Multistage.Random.Sampling

namespace Multistage

/-- A stage of a path: Markov state, scenario and solution. -/
structure Visit (α : Type) where
  markov : Nat
  scenario : Nat
  solution : StageSolution α

/-- A path: one visit per stage. -/
abbrev Trajectory (α : Type) := List (Visit α)

namespace Model

variable {α : Type} [Scalar α]

/-- Solves the problem of a stage and Markov state. -/
def solveAt (m : Model α) (t i : Nat) (x : Point α) (scenario : Nat) :
    Except Failure (StageSolution α) := do
  (← m.problems.entry t i).solve x scenario

/-- The visits of a number of stages, from stage `t` in Markov state `i` at
state `x` on. -/
def visits (m : Model α) : Nat → Nat → Nat → Point α → Transition (Draws α) (List (Visit α))
  | 0, _, _, _ => return []
  | n + 1, t, i, x => do
    let scenario ← sampleLeading (← Transition.outcome (m.scenarioRow t i))
    let solution ← Transition.outcome (m.solveAt t i x scenario)
    let later ← match n with
      | 0 => pure []
      | _ + 1 => do
        let next ← sampleIndex (← Transition.outcome (m.transitionRow t i))
        visits m n (t + 1) next solution.state
    return ⟨i, scenario, solution⟩ :: later

/-- Samples one path with the cuts that are loaded. -/
def trajectory (m : Model α) : Transition (Draws α) (Trajectory α) := do
  let first ← sampleIndex m.configuration.initial
  m.visits m.stageCount 0 first m.configuration.initialState

end Model

/-! ## Models and random numbers together -/

/-- A model and the stream that its paths are drawn from. -/
structure Play (α : Type) where
  model : Model α
  draws : Draws α

namespace Play

variable {α β : Type}

/-- An operation that draws numbers and looks at the model. -/
def sampling (op : Model α → Transition (Draws α) β) : Transition (Play α) β :=
  Transition.of fun p =>
    let (r, draws) := (op p.model).perform p.draws
    (r, { p with draws })

/-- An operation on the model that draws no numbers. -/
def onModel (op : Transition (Model α) β) : Transition (Play α) β :=
  Transition.focus Play.model (fun model p => { p with model }) op

end Play

end Multistage
