/-
Multistage.Stage.Problem — what a model knows of a stage problem.

A stage problem is solved at an incoming state for one scenario.  Apart from
that a model only knows the number of states, the scenario probabilities, the
settings that it has given to the problem, and the cuts that it has loaded.
How a solution is found is the problem's own affair.
-/
import Multistage.Named
import Multistage.Sense
import Multistage.Stage.Solution
import Multistage.Tensor

namespace Multistage

/-- What a model tells a stage problem: the sense of the objective, whether
the stage is the last one, a bound on the value of the stages to come, which may
be infinite on either side, and the names of the stage and Markov state at which
the problem stands, which are their numbers in a model. -/
structure Setting (α : Type) where
  sense : Sense := .min
  final : Bool := false
  bound : Option (Limit α) := none
  stage : Value := .null
  markovState : Value := .null
  deriving DecidableEq

/-- All that a solution depends on: settings, loaded cuts, solver parameters,
and the number of scenarios. -/
structure Situation (α : Type) where
  setting : Setting α
  cuts : List (Cut α)
  params : Named Value
  scenarios : Nat

/-- A stage problem.  `answer` solves it in a situation, at an incoming state
of the right dimension, for a scenario.  The probabilities are a vector with
one number per scenario, or an array with one part per scenario.  Only some
problems take solver parameters. -/
structure StageProblem (α : Type) where
  stateCount : Int
  probabilities : Tensor α
  answer : Situation α → Point α → Int → Except Failure (StageSolution α)
  setting : Setting α := {}
  cuts : List (Cut α) := []
  params : Option (Named Value) := none

namespace StageProblem

variable {α : Type}

/-- Number of scenarios. -/
def scenarioCount (p : StageProblem α) : Nat := p.probabilities.size

/-- What a solution of the problem depends on at present. -/
def situation (p : StageProblem α) : Situation α where
  setting := p.setting
  cuts := p.cuts
  params := p.params.getD []
  scenarios := p.scenarioCount

/-! ## Settings and cuts -/

/-- The problem with the settings of a model. -/
def bind (p : StageProblem α) (s : Setting α) : StageProblem α := { p with setting := s }

/-- The problem with further solver parameters, if it takes any. -/
def addParams (p : StageProblem α) (further : Named Value) : StageProblem α :=
  { p with params := p.params.map fun own => own.update further }

/-- Refuses a cut of the wrong dimension. -/
def checkCut (p : StageProblem α) (c : Cut α) : Except Failure Unit :=
  if (c.stateCount : Int) = p.stateCount then .ok ()
  else .error (.mismatched (.cutLength c.stateCount p.stateCount))

/-- The problem with its cuts replaced.  All of them have to fit. -/
def setCuts (p : StageProblem α) (cuts : List (Cut α)) : Except Failure (StageProblem α) := do
  cuts.forM p.checkCut
  return { p with cuts := cuts }

/-- The problem with one more cut. -/
def addCut (p : StageProblem α) (c : Cut α) : Except Failure (StageProblem α) := do
  p.checkCut c
  return { p with cuts := p.cuts ++ [c] }

/-! ## Solutions -/

/-- Refuses an incoming state of the wrong dimension. -/
def checkState (stateCount : Int) (x : Point α) : Except Failure Unit :=
  if (x.length : Int) = stateCount then .ok ()
  else .error (.mismatched (.incomingState x.length stateCount))

/-- Solves the problem at an incoming state for a scenario. -/
def solve (p : StageProblem α) (x : Point α) (scenario : Int) :
    Except Failure (StageSolution α) := do
  checkState p.stateCount x
  p.answer p.situation x scenario

end StageProblem

end Multistage
