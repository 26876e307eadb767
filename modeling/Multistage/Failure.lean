/-
Multistage.Failure — why an operation did not succeed.

A failure is a cause with its data.  Causes of the library's own kinds have a
message; the others (a value of the wrong kind, an index out of range, a
number too large) are told apart by kind only.  `Failure.message?` is the one
place where wording lives.
-/
import Multistage.Value.Basic

namespace Multistage

/-! ## Misconfiguration -/

/-- What is wrong with the arguments of a model, a measure or a run. -/
inductive Misconfiguration where
  | unknownSense (given : Value)
  | negative (name : String) (given : Value)
  | belowOne (name : String) (given : Value)
  | notPositive (name : String) (given : Value)
  | unknownSelection (given : Value)
  | unknownOption (key : Value)
  | notANumber (name : String) (given : Value)
  | outsideUnitInterval (name : String) (given : Value)
  | measuresNotSelectable
  | sensesWithoutRhs
  | unknownRowSense (sense : Value)
  | stateIndexOutOfRange (decisions : Nat)
  | scenarioOutOfRange (scenario : Value) (scenarios : Nat)
  | builderMissing
  | confidenceOutsideUnit (given : Value)
  | notARiskMeasure (typeName : String)
  | transitionMissing
  | transitionShape (stages markovStates : Int) (shape : List Nat)
  | negativeTransition
  | negativeInitial
  | notAStageProblem (stage markovState : Nat) (typeName : String)
  | unreportedVariable (stage : Nat) (name : Value)
  | unknownPoolKind (kind : String)
  | argumentCount (tuples workers : Nat)
  | other (text : String)

/-- The wording of a misconfiguration. -/
def Misconfiguration.message : Misconfiguration → String
  | unknownSense v => "unknown optimization sense '" ++ v.text ++ "'"
  | negative name v => name ++ " must be non-negative, got " ++ v.text
  | belowOne name v => name ++ " must be at least 1, got " ++ v.text
  | notPositive name v => name ++ " must be positive, got " ++ v.text
  | unknownSelection v =>
    "unknown cut selection '" ++ v.text ++ "', expected one of ['level_one', 'none']"
  | unknownOption key => "unknown option '" ++ key.text ++ "'"
  | notANumber name v => name ++ " must be a number, got " ++ v.quoted
  | outsideUnitInterval name v => name ++ " must be in [0, 1], got " ++ v.text
  | measuresNotSelectable => "measures must be a mapping or a callable"
  | sensesWithoutRhs => "b required with constraint_senses"
  | unknownRowSense sense => "unknown constraint sense '" ++ sense.text ++ "'"
  | stateIndexOutOfRange n => s!"state_out indices must be in [0, {n})"
  | scenarioOutOfRange s n => "scenario " ++ s.text ++ s!" out of range [0, {n})"
  | builderMissing => "build_function must be callable"
  | confidenceOutsideUnit v => "conf_level must be in (0, 1), got " ++ v.text
  | notARiskMeasure name => "risk_measure must be a RiskMeasure, got " ++ name
  | transitionMissing => "transition is required when n_markov_states > 1"
  | transitionShape stages m shape =>
    "transition must have shape " ++ Text.shapeText [m, m] ++ " or " ++
      Text.shapeText [stages - 1, m, m] ++ ", got " ++
      Text.shapeText (shape.map Int.ofNat)
  | negativeTransition => "transition probabilities must be non-negative"
  | negativeInitial => "initial_markov_probability must be non-negative"
  | notAStageProblem t i name =>
    s!"build_function({t}, {i}) returned {name}, expected a StageProblem"
  | unreportedVariable t name =>
    s!"stage {t} does not report a variable named '" ++ name.text ++ "'"
  | unknownPoolKind kind =>
    "unknown pool kind '" ++ kind ++ "', expected 'thread' or 'process'"
  | argumentCount tuples workers => s!"{tuples} argument tuples for {workers} workers"
  | other text => text

/-! ## Mismatched dimensions -/

/-- Two lengths that should agree and do not. -/
inductive Mismatch where
  | cutLength (given : Nat) (expected : Int)
  | pointLength (given : Nat) (expected : Int)
  | bufferLength (given scenarios : Nat)
  | batch (text : String)
  | columnBounds (lower upper columns : Nat)
  | matrixColumns (given columns : Nat)
  | sensedRows (rows senses rhs : Nat)
  | rowBounds (lower upper rows : Nat)
  | scenarioTable (name : String) (width scenarios : Nat) (shape : List Nat)
  | inflowShape (rows states : Nat) (shape : List Nat)
  | rowSenses (rows senses : Nat)
  | decisionBounds (decisions : Nat)
  | variableNames (decisions names : Nat)
  | incomingState (given : Nat) (expected : Int)
  | initialState (given : Nat) (expected : Int)
  | initialMarkov (given : Nat) (expected : Int)
  | stateCounts (counts : List Int)
  | scenarioCount (stage markovState given scenarios : Nat)
  | storeGrid (stages markovStates : Nat)
  | other (text : String)

/-- The wording of a mismatch. -/
def Mismatch.message : Mismatch → String
  | cutLength given expected => s!"cut has {given} coefficients, expected {expected}"
  | pointLength given expected => s!"sample point has {given} entries, expected {expected}"
  | bufferLength given n => s!"buffer of length {given} for {n} scenarios"
  | batch text => text
  | columnBounds l u n => s!"Bounds mismatch: lb={l}, ub={u}, n={n}"
  | matrixColumns given n => s!"A columns {given} != n={n}"
  | sensedRows m senses rhs => s!"{m} rows but {senses} senses and {rhs} rhs"
  | rowBounds l u m => s!"row bounds have {l}/{u} entries, expected {m}"
  | scenarioTable name width scenarios shape =>
    name ++ " must have shape " ++ Text.shapeText [width] ++ " or " ++
      Text.shapeText [scenarios, width] ++ ", got " ++ Text.shapeText (shape.map Int.ofNat)
  | inflowShape m n shape =>
    "A_in must have shape " ++ Text.shapeText [m, n] ++ ", got " ++
      Text.shapeText (shape.map Int.ofNat)
  | rowSenses m senses => s!"{m} rows but {senses} senses"
  | decisionBounds n => s!"bounds must have {n} entries"
  | variableNames n names => s!"{n} variables but {names} names"
  | incomingState given expected =>
    s!"incoming state has {given} entries, expected {expected}"
  | initialState given expected =>
    s!"initial_state has {given} entries, stage problems have {expected} states"
  | initialMarkov given expected =>
    s!"initial_markov_probability has {given} entries, expected {expected}"
  | stateCounts counts =>
    "stage problems disagree on the number of states: " ++
      Text.bracketed (counts.map Decimal.intText)
  | scenarioCount t i given n =>
    s!"stage {t} markov state {i}: {given} probabilities for {n} scenarios"
  | storeGrid stages m => s!"cut stores must be a {stages} x {m} grid"
  | other text => text

/-! ## Simulation tables -/

/-- Why two simulation tables cannot be joined. -/
inductive TableFault where
  | missingKey (key : Value)
  | surplusKeys (keys : List Value)
  | stageCount (key : Value) (given expected : Nat)
  | other (text : String)

/-- The wording of a table fault. -/
def TableFault.message : TableFault → String
  | missingKey key => "worker result is missing key '" ++ key.text ++ "'"
  | surplusKeys keys =>
    "first worker result is missing keys " ++ (Value.list keys).quoted
  | stageCount key given expected =>
    "key '" ++ key.text ++ s!"' has {given} stages, expected {expected}"
  | other text => text

/-! ## Failures -/

/-- Why an operation did not succeed.  A stage problem may word its own
failure, in any value. -/
inductive Failure where
  | general (message : Value)
  | misconfigured (why : Misconfiguration)
  | unsupportedMeasure (typeName : String)
  | mismatched (why : Mismatch)
  | infeasible (message stage markovState : Value)
  | unsolved (message : Value)
  | inconsistent (why : TableFault)
  | overdue (message pending : Value)
  | wrongKind
  | badValue (text : String)
  | outOfRange
  | tooLarge
  | interrupted

namespace Failure

/-- The message of a stage problem without a feasible decision, unless the
problem words its own. -/
def infeasibleText : String := "Stage subproblem is infeasible"

/-- The message of a failed solve, unless the problem words its own. -/
def unsolvedText : String := "Stage subproblem solve failed"

/-- The message of a round that ran out of time, unless the round words its
own. -/
def overdueText : String := "Workers did not finish in time"

/-- The message of a failure of the library's own kinds. -/
def message? : Failure → Option Value
  | general message => some message
  | misconfigured why => some ("Invalid configuration: " ++ why.message : String)
  | unsupportedMeasure name =>
    some ("Invalid configuration: no cut generator for risk measure of type " ++ name ++
      "; override \x60generate_cut(sense, x, pi, theta, prob)\x60 or " ++
      "\x60generate_stage_cut(sense, x, pi, theta, prob, stage, markov_state)\x60" : String)
  | mismatched why => some ("Invalid configuration: dimension mismatch: " ++ why.message : String)
  | infeasible message _ _ => some message
  | unsolved message => some message
  | inconsistent why => some ("Inconsistent result shape: " ++ why.message : String)
  | overdue message _ => some message
  | wrongKind | badValue _ | outOfRange | tooLarge | interrupted => none

end Failure

/-! ## Operations on a state -/

/-- An operation on a state that may fail.  The state is there afterwards in
either case, so what a failed operation left behind can be seen. -/
abbrev Transition (σ : Type) := ExceptT Failure (StateM σ)

namespace Transition

variable {σ τ β : Type}

/-- Runs an operation: its outcome and the state it leaves. -/
def perform (op : Transition σ β) (s : σ) : Except Failure β × σ := op.run.run s

/-- The operation with a given outcome and effect. -/
def of (f : σ → Except Failure β × σ) : Transition σ β := ExceptT.mk fun s => f s

/-- An outcome without effect on the state. -/
def outcome (r : Except Failure β) : Transition σ β := of fun s => (r, s)

/-- An operation on a part of the state. -/
def focus (part : σ → τ) (put : τ → σ → σ) (op : Transition τ β) : Transition σ β :=
  of fun s =>
    let (r, t) := op.perform (part s)
    (r, put t s)

/-- An operation performed a number of times: the list of its outcomes. -/
def times : Nat → Transition σ β → Transition σ (List β)
  | 0, _ => return []
  | n + 1, op => do
    let b ← op
    return b :: (← times n op)

end Transition

end Multistage
