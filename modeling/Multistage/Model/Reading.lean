/-
Multistage.Model.Reading — arguments of a model out of values.
-/
import Multistage.Model.Blueprint
import Multistage.Stage.Reading

namespace Multistage.Blueprint

/-- The arguments of a model as values; `null` stands for a missing one. -/
structure Arguments where
  stageCount : Value
  initialState : Value
  sense : Value := .string "min"
  markovCount : Value := .int 1
  transition : Value := .null
  initial : Value := .null
  scenarios : Value := .null
  bound : Value := .null
  confidence : Value := .float 0.95
  params : Value := .null

/-- The arguments of a record.  The number of stages and the initial state
have to be there; other parts that are not there have their usual values. -/
def Arguments.ofRecord (v : Value) : Except Failure Arguments :=
  match v.field? "n_stages", v.field? "initial_state" with
  | some stageCount, some initialState =>
    .ok {
      stageCount, initialState
      sense := v.field "sense" "min"
      markovCount := v.field "n_markov_states" (.int 1)
      transition := v.field "transition"
      initial := v.field "initial_markov_probability"
      scenarios := v.field "scenario_probability"
      bound := v.field "value_to_go_bound"
      confidence := v.field "conf_level" (.float 0.95)
      params := v.field "solver_params" }
  | _, _ => .error .wrongKind

/-- The item of a list; only lists have items. -/
def item (v : Value) (k : Nat) : Except Failure Value :=
  match v with
  | .list vs =>
    match vs[k]? with
    | some w => .ok w
    | none => .error .outOfRange
  | .string s =>
    match s.toList[k]? with
    | some c => .ok (.string (String.singleton c))
    | none => .error .outOfRange
  | _ => .error .wrongKind

/-- The scenario probabilities of a stage and Markov state in a nested
list. -/
def lookUp (v : Value) (t i : Nat) : Except Failure (List Float) := do
  Tensor.flatten (← item (← item v t) i)

/-- The blueprint of arguments, a builder and a measure. -/
def ofArguments (a : Arguments) (builder : Option (Builder Float)) (measure : RiskMeasure Float) :
    Blueprint Float where
  builder
  stageCount := ⟨a.stageCount.toInt, a.stageCount⟩
  initialState := Tensor.flatten a.initialState
  sense := Sense.parse a.sense
  markovCount := ⟨a.markovCount.toInt, a.markovCount⟩
  transition := LinearStage.optional a.transition Tensor.ofValue
  initial := LinearStage.optional a.initial Tensor.flatten
  scenarios := match a.scenarios with
    | .null => none
    | v => some (lookUp v)
  measure
  bound := LinearStage.optional a.bound fun v => return Scalar.limit (← v.toFloat)
  confidence := ⟨a.confidence.toFloat, a.confidence⟩
  params := Named.ofValue a.params

end Multistage.Blueprint
