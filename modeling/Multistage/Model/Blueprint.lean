/-
Multistage.Model.Blueprint — making models.

A blueprint holds the arguments from which a model is made.  An argument is a
reading: it may turn out to be unusable when its turn comes, so of several
faults the first in a fixed order is reported.  A configuration is a blueprint
without faults, and the model made of it is the one it was taken from, without
cuts and bounds.
-/
import Multistage.Model.Basic

namespace Multistage

/-- An argument with the form in which it was given, which messages show. -/
structure Given (β : Type) where
  reading : Except Failure β
  shown : Value

/-- An argument that is known to be usable. -/
def Given.exactly {β : Type} (b : β) : Given β := ⟨.ok b, .null⟩

/-- The arguments from which a model is made; optional ones may be missing.
Scenario probabilities are looked up pair by pair. -/
structure Blueprint (α : Type) where
  builder : Option (Builder α)
  stageCount : Given Int
  initialState : Except Failure (Point α)
  sense : Except Failure Sense := .ok .min
  markovCount : Given Int := Given.exactly 1
  transition : Except Failure (Option (Tensor α)) := .ok none
  initial : Except Failure (Option (List α)) := .ok none
  scenarios : Option (Nat → Nat → Except Failure (List α)) := none
  measure : RiskMeasure α := { rule := .expectation }
  bound : Except Failure (Option (Limit α)) := .ok none
  confidence : Given α
  params : Except Failure (Named Value) := .ok []

namespace Blueprint

variable {α : Type} [Scalar α]

/-! ## Counts and probabilities -/

/-- A count, which is at least one. -/
def count (name : String) (g : Given Int) : Except Failure Nat := do
  let n ← g.reading
  if n < 1 then throw (.misconfigured (.belowOne name g.shown))
  return n.toNat

/-- A confidence level strictly between zero and one. -/
def confidenceLevel (g : Given α) : Except Failure α := do
  let level ← g.reading
  if 0 < level ∧ level < 1 then return level
  throw (.misconfigured (.confidenceOutsideUnit g.shown))

/-- The transition probabilities of all stages but the last: one matrix for
all of them, or a matrix for each. -/
def transitionGrid (stages states : Nat) : Option (Tensor α) → Except Failure (Grid (List α))
  | none =>
    if states = 1 then
      if Tensor.fitsMemory [stages - 1] then .ok (List.replicate (stages - 1) [[1]])
      else .error (.badValue "too many stages")
    else .error (.misconfigured .transitionMissing)
  | some t =>
    let grid :=
      if t.shape = [states, states] then
        some (List.replicate (stages - 1) (Tensor.chunks states states t.entries))
      else if t.shape = [stages - 1, states, states] then
        some ((Tensor.chunks (states * states) (stages - 1) t.entries).map
          (Tensor.chunks states states))
      else none
    match grid with
    | none => .error (.misconfigured (.transitionShape stages states t.shape))
    | some grid =>
      if grid.any fun rows => rows.any fun row => row.any fun p => decide (p < 0) then
        .error (.misconfigured .negativeTransition)
      else .ok grid

/-- The distribution of the first Markov state; without one all mass is on
the first state. -/
def initialDistribution (states : Nat) : Option (List α) → Except Failure (List α)
  | none => .ok (1 :: List.replicate (states - 1) 0)
  | some p =>
    if p.length ≠ states then .error (.mismatched (.initialMarkov p.length states))
    else if p.any fun a => decide (a < 0) then .error (.misconfigured .negativeInitial)
    else .ok p

/-! ## Stage problems -/

/-- Builds the problem of a stage and Markov state and tells it what the model
knows. -/
def buildProblem (builder : Builder α) (stages : Nat) (sense : Sense)
    (bound : Option (Limit α)) (params : Named Value) (t i : Nat) :
    Except Failure (StageProblem α) := do
  match ← builder t i with
  | .other typeName => throw (.misconfigured (.notAStageProblem t i typeName))
  | .problem p =>
    return (p.bind
      { sense, final := t + 1 == stages, bound, stage := .int t, markovState := .int i }).addParams
        params

/-- The number of states that all stage problems share. -/
def commonStateCount (problems : Grid (StageProblem α)) : Except Failure Int :=
  let counts := (problems.flatten.map StageProblem.stateCount).eraseDups
  match counts with
  | [n] => .ok n
  | _ => .error (.mismatched (.stateCounts (counts.mergeSort fun a b => decide (a ≤ b))))

/-- The scenario probabilities of a stage problem, its own or those given for
it; there is one per scenario and at least one. -/
def scenarioVector (given : Option (Nat → Nat → Except Failure (List α)))
    (problems : Grid (StageProblem α)) (t i : Nat) : Except Failure (Tensor α) := do
  let problem ← problems.entry t i
  let p ← match given with
    | none => pure problem.probabilities
    | some lookUp => pure (Tensor.vector (← lookUp t i))
  match problem.probabilities.leading? with
  | none => throw .wrongKind
  | some n =>
    if p.size ≠ n ∨ p.size = 0 then throw (.mismatched (.scenarioCount t i p.size n))
    return p

/-- The problems with the scenario probabilities of a grid. -/
def withScenarios (problems : Grid (StageProblem α)) (scenarios : Grid (Tensor α)) :
    Grid (StageProblem α) :=
  List.zipWith
    (List.zipWith fun (p : StageProblem α) q => { p with probabilities := q }) problems scenarios

/-! ## Models -/

/-- Makes the model of a blueprint. -/
def model (b : Blueprint α) : Except Failure (Model α) := do
  let builder ← match b.builder with
    | some f => pure f
    | none => throw (.misconfigured .builderMissing)
  let stages ← count "n_stages" b.stageCount
  let states ← count "n_markov_states" b.markovCount
  let confidence ← confidenceLevel b.confidence
  if b.measure.rule.isForeign then
    throw (.misconfigured (.notARiskMeasure b.measure.rule.typeName))
  let sense ← b.sense
  let initialState ← b.initialState
  let bound ← b.bound
  let params ← b.params
  let transition ← transitionGrid stages states (← b.transition)
  let initial ← initialDistribution states (← b.initial)
  let problems ← Grid.ofFnM stages states (buildProblem builder stages sense bound params)
  let stateCount ← commonStateCount problems
  if (initialState.length : Int) ≠ stateCount then
    throw (.mismatched (.initialState initialState.length stateCount))
  let scenarios ← Grid.ofFnM stages states (scenarioVector b.scenarios problems)
  return {
    configuration :=
      { sense, stageCount := stages, markovCount := states, initialState, transition, initial
        scenarios, confidence, params, bound, measure := b.measure, builder }
    stateCount
    problems := withScenarios problems scenarios
    stores := Grid.ofFn stages states fun _ _ => Store.empty stateCount }

end Blueprint

/-! ## Rebuilding -/

namespace Configuration

variable {α : Type} [Scalar α]

/-- The arguments that a configuration stands for.  All entries of an array of
scenario probabilities are handed on as one vector. -/
def blueprint (c : Configuration α) : Blueprint α where
  builder := some c.builder
  stageCount := Given.exactly c.stageCount
  initialState := .ok c.initialState
  sense := .ok c.sense
  markovCount := Given.exactly c.markovCount
  transition := .ok (some
    ⟨[c.stageCount - 1, c.markovCount, c.markovCount], c.transition.flatten.flatten⟩)
  initial := .ok (some c.initial)
  scenarios := some fun t i => return (← c.scenarios.entry t i).entries
  measure := c.measure
  bound := .ok c.bound
  confidence := Given.exactly c.confidence
  params := .ok c.params

/-- Makes the model of a configuration anew, without cuts and bounds. -/
def rebuild (c : Configuration α) : Except Failure (Model α) := c.blueprint.model

end Configuration

end Multistage
