/-
Multistage.Policy.Bound — loading cuts, bounding the optimal value, and
estimating the policy's value.
-/
import Multistage.Policy.Trajectory

namespace Multistage

/-! ## Loading cuts -/

namespace Model

variable {α : Type} [Scalar α]

/-- Loads the problem of one pair with the cuts that a selection picks, after
a new count of votes if one is asked for and the selection needs it. -/
def reloadAt (selection : Selection) (recount : Bool) (t i : Nat) :
    Transition (Model α) Unit := do
  let sense := (← get).configuration.sense
  if recount && selection.needsVotes then onStore t i (modify (Store.recount sense))
  let store ← Transition.outcome ((← get).stores.entry t i)
  let cuts ← Transition.outcome (selection.select store)
  onProblem t i fun p => p.setCuts cuts

/-- Loads every stage problem with the cuts that a selection picks. -/
def reload (selection : Selection) (recount : Bool) : Transition (Model α) Unit := do
  let m ← get
  (Grid.pairs m.stageCount m.markovCount).forM fun (t, i) => reloadAt selection recount t i

/-! ## The bound -/

/-- The first stage solved at the initial state, for every Markov state and
scenario. -/
def firstStageSolutions (m : Model α) : Except Failure (List (List (StageSolution α))) :=
  (List.range m.markovCount).mapM fun i => do
    let problem ← m.problems.entry 0 i
    (List.range problem.scenarioCount).mapM fun (s : Nat) =>
      problem.solve m.configuration.initialState s

/-- Solves the first stage and keeps the solutions. -/
def solveFirstStage : Transition (Model α) (List (List (StageSolution α))) := do
  let solutions ← Transition.outcome (← get).firstStageSolutions
  modify fun m => { m with firstStage := solutions }
  return solutions

/-- The expectation of a Markov state's first-stage objectives. -/
def expectedObjective (probabilities : List α) (solutions : List (StageSolution α)) : α :=
  Scalar.total
    (List.zipWith (fun q (s : StageSolution α) => q * s.objective) probabilities solutions)

/-- Adds up the Markov states' expected objectives, weighted by the initial
distribution; a state without weight is left out. -/
def boundOf (initial : List α) (expected : List α) : α :=
  (initial.zip expected).foldl (fun sum (p, e) => if p == 0 then sum else sum + p * e) 0

/-- Refuses scenario probabilities of the first stage that are not one number
per scenario: no number results from them, if their sums fit together at all.
A Markov state without weight is left out. -/
def checkExpectation (initial : List α) (rows : List (Tensor α)) : Except Failure Unit := do
  let shape ← (initial.zip rows).foldlM
    (fun sum (p, q) =>
      if p == 0 then pure sum
      else if sum.isEmpty then pure q.shape.tail
      else if Tensor.fitsInto q.shape.tail sum then pure sum
      else throw (.badValue "operands could not be broadcast together"))
    []
  if shape.isEmpty then pure () else throw .wrongKind

/-- Sets the bound from the solutions of the first stage that are at hand; it
is solved only if there are none. -/
def setBound : Transition (Model α) α := do
  if (← get).firstStage.isEmpty then discard solveFirstStage
  let m ← get
  let rows := (m.configuration.scenarios[0]?).getD []
  Transition.outcome (checkExpectation m.configuration.initial rows)
  let bound := boundOf m.configuration.initial
    (List.zipWith (fun q => expectedObjective q.entries) rows m.firstStage)
  set { m with figures := m.figures.withBound bound }
  return bound

end Model

/-! ## The confidence interval -/

namespace Model

variable {α : Type}

/-- Keeps the confidence interval of sampled objectives. -/
def setInterval [Statistical α] (samples : List α) :
    Transition (Model α) (Option (Interval α)) := do
  let m ← get
  let interval := (confidenceInterval samples m.configuration.confidence).map Prod.snd
  set { m with figures := m.figures.withInterval interval }
  return interval

end Model

end Multistage
