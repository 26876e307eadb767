/-
Multistage.Model.Basic — multistage stochastic programs.

A model has stages, and in each stage the state of a Markov chain.  For every
pair of stage and Markov state there is a stage problem, a vector of scenario
probabilities and a store of cuts.  The configuration is what was fixed when
the model was made; the rest is what a policy's computation changes.
-/
import Multistage.Cut.Dominance
import Multistage.Grid
import Multistage.Model.Figures
import Multistage.Risk.Measure
import Multistage.Stage.Problem

namespace Multistage

/-- What building a stage problem yields: a problem, or something else. -/
inductive Built (α : Type) where
  | problem (p : StageProblem α)
  | other (typeName : String)

/-- Builds the stage problem of a stage and Markov state. -/
abbrev Builder (α : Type) := Nat → Nat → Except Failure (Built α)

/-- What is fixed when a model is made.  `transition` holds, for every stage
but the last and every Markov state, the probabilities of the Markov states of
the next stage.  `scenarios` holds arrays with one part per scenario, which are
vectors unless a stage problem states more than a number per scenario. -/
structure Configuration (α : Type) where
  sense : Sense
  stageCount : Nat
  markovCount : Nat
  initialState : Point α
  transition : Grid (List α)
  initial : List α
  scenarios : Grid (Tensor α)
  confidence : α
  params : Named Value
  bound : Option (Limit α)
  measure : RiskMeasure α
  builder : Builder α

/-- A multistage stochastic program together with its policy: the loaded stage
problems, the cut stores, the figures of the policy's value, and the last
solutions of the first stage. -/
structure Model (α : Type) where
  configuration : Configuration α
  stateCount : Int
  problems : Grid (StageProblem α)
  stores : Grid (Store α)
  figures : Figures α := {}
  firstStage : List (List (StageSolution α)) := []

namespace Model

variable {α : Type}

/-! ## Views -/

/-- Number of stages. -/
def stageCount (m : Model α) : Nat := m.configuration.stageCount

/-- Number of Markov states of each stage. -/
def markovCount (m : Model α) : Nat := m.configuration.markovCount

section Counts

-- Sums are the plain ones, also where a library of algebra offers its own.
attribute [local instance (high)] Zero.ofOfNat0

/-- Number of cuts in all stores. -/
def cutCount (m : Model α) : Nat :=
  (m.stores.map fun row => (row.map fun s => s.cuts.length).sum).sum

end Counts

/-- The probabilities of the next stage's Markov states. -/
def transitionRow (m : Model α) (t i : Nat) : Except Failure (List α) :=
  m.configuration.transition.entry t i

/-- The scenario probabilities of a stage and Markov state. -/
def scenarioRow (m : Model α) (t i : Nat) : Except Failure (Tensor α) :=
  m.configuration.scenarios.entry t i

/-- The stage and Markov state of a store that is named by two indices, which
may count from the end. -/
def place (m : Model α) (stage markov : Int) : Except Failure (Nat × Nat) :=
  match Grid.position? m.stageCount stage, Grid.position? m.markovCount markov with
  | some t, some i => .ok (t, i)
  | _, _ => .error .outOfRange

/-- The transition row that is named by two indices, which may count from the
end. -/
def transitionAt (m : Model α) (stage markov : Int) : Except Failure (List α) :=
  match Grid.position? (m.stageCount - 1) stage, Grid.position? m.markovCount markov with
  | some t, some i => m.transitionRow t i
  | _, _ => .error .outOfRange

/-- Whether the gap of a model is below a tolerance. -/
def meets (m : Model Float) (tolerance : Value) : Except Failure Bool :=
  m.figures.meets tolerance m.configuration.sense

/-- The configuration from which a worker rebuilds the model.  It shares
nothing with the model. -/
def snapshot (m : Model α) : Configuration α := m.configuration

/-- The one-line description of a model. -/
def describe (m : Model Float) : String :=
  "SDDPModel(sense=" ++ m.configuration.sense.name ++ s!", n_stages={m.stageCount}, " ++
    s!"n_markov_states={m.markovCount}, n_states={m.stateCount}, n_cuts={m.cutCount}, " ++
    "bound=" ++ m.figures.boundValue.text ++ ")"

/-! ## Changes -/

/-- The model with other cut stores, one for every stage and Markov state. -/
def withStores (m : Model α) (stores : Grid (Store α)) : Except Failure (Model α) :=
  if stores.fits m.stageCount m.markovCount then .ok { m with stores }
  else .error (.mismatched (.storeGrid m.stageCount m.markovCount))

/-- An operation on the store of a stage and Markov state. -/
def onStore {β : Type} (t i : Nat) (op : Transition (Store α) β) : Transition (Model α) β :=
  Transition.of fun m =>
    match m.stores.get? t i with
    | none => (.error .outOfRange, m)
    | some s =>
      let (r, s) := op.perform s
      (r, { m with stores := m.stores.put t i s })

/-- A change of the problem of a stage and Markov state; a change that fails
leaves it as it was. -/
def onProblem (t i : Nat) (change : StageProblem α → Except Failure (StageProblem α)) :
    Transition (Model α) Unit :=
  Transition.of fun m =>
    match m.problems.get? t i with
    | none => (.error .outOfRange, m)
    | some p =>
      match change p with
      | .ok p => (.ok (), { m with problems := m.problems.put t i p })
      | .error e => (.error e, m)

/-- An operation on the risk measure. -/
def onMeasure {β : Type} (op : Transition (RiskMeasure α) β) : Transition (Model α) β :=
  Transition.focus (fun m => m.configuration.measure)
    (fun measure m => { m with configuration := { m.configuration with measure } }) op

end Model

end Multistage
