/-
Multistage.Training.Run — computing a policy.

A training run alternates backward rounds with periodic forward rounds, until
a forward round finds the gap below the tolerance, the time is used up, or the
given number of rounds has been run.  What a run does at a round follows from
a plan; time is read off a clock that gives the seconds elapsed after each
round.  Before the first round the log is set to the level that the plan asks
for.
-/
import Multistage.Round.Coordinator
import Multistage.Training.Logging
import Multistage.Training.Options
import Multistage.Training.Result
import Multistage.Value.Periodic

namespace Multistage

/-- What a training run does.  Decisions that rest on unusable settings fail
when they are made. -/
structure Plan (α : Type) where
  logLevel : Except Failure (Option Int)
  selection : Selection
  rounds : Except Failure Nat
  seed : Value
  timeout : Value
  backwardPasses : Value
  selectsAnew : Nat → Except Failure Bool
  forwardPasses : Value
  tests : Nat → Except Failure Bool
  judge : Model α → Except Failure Bool
  reports : Nat → Except Failure Bool
  line : HistoryEntry α → Except Failure String
  isOver : α → Bool

/-- Why a training run ends. -/
inductive Ending where
  | converged
  | timeLimit
  | maxIterations
  deriving Repr, DecidableEq

/-- The name of an ending. -/
def Ending.name : Ending → String
  | converged => TrainingResult.convergedStatus
  | timeLimit => TrainingResult.timeLimitStatus
  | maxIterations => TrainingResult.maxIterationsStatus

/-- A training run on its way: the coordinator, the rounds so far, and the
lines of those of them that are reported. -/
structure Progress (α : Type) where
  coordinator : Coordinator α
  history : List (HistoryEntry α) := []
  reported : List String := []

namespace Progress

variable {α β : Type} [Statistical α] [Seeded α]

/-- An operation of the coordinator. -/
def coordinate (op : Transition (Coordinator α) β) : Transition (Progress α) β :=
  Transition.focus Progress.coordinator (fun coordinator p => { p with coordinator }) op

/-- The schedule on which all workers complete. -/
def schedule (p : Progress α) : Schedule := p.coordinator.pool.schedule

/-- Round `k` of a plan: a backward round, and a forward round when one is
due.  Answers whether the forward round found the policy good enough. -/
def roundOf (plan : Plan α) (k : Nat) : Transition (Progress α) Bool := do
  let schedule := (← get).schedule
  coordinate (Coordinator.backwardRound plan.backwardPasses plan.selection plan.selectsAnew
    schedule)
  if ← Transition.outcome (plan.tests k) then
    let (converged, _) ← coordinate
      (Coordinator.forwardRound plan.forwardPasses plan.judge schedule)
    return converged
  else return false

/-- The entry of round `k` in the history. -/
def entry (p : Progress α) (k : Nat) (converged : Bool) : HistoryEntry α :=
  let m := p.coordinator.model
  { iteration := k, figures := m.figures, cutCount := m.cutCount, converged }

/-- Writes down round `k`. -/
def record (plan : Plan α) (k : Nat) (converged : Bool) : Transition (Progress α) Unit := do
  let e := (← get).entry k converged
  modify fun p => { p with history := p.history ++ [e] }
  if (← Transition.outcome (plan.reports k)) || converged then
    let line ← Transition.outcome (plan.line e)
    modify fun p => { p with reported := p.reported ++ [line] }

/-- The rounds of a plan from `k` on, as many as are left. -/
def roundsFrom (plan : Plan α) (clock : Nat → α) : Nat → Nat → Transition (Progress α) Ending
  | 0, _ => return .maxIterations
  | n + 1, k => do
    let converged ← roundOf plan k
    record plan k converged
    if converged then return .converged
    else if plan.isOver (clock k) then return .timeLimit
    else roundsFrom plan clock n (k + 1)

/-- All rounds of a plan.  The workers have to be listable. -/
def run (plan : Plan α) (clock : Nat → α) : Transition (Progress α) Ending := do
  Transition.outcome (← get).coordinator.pool.checkListable
  let n ← Transition.outcome plan.rounds
  roundsFrom plan clock n 1

/-- The result of a run that has ended. -/
def result (p : Progress α) (clock : Nat → α) (ending : Ending) : TrainingResult α :=
  let m := p.coordinator.model
  { status := ending.name
    iterations := p.history.length
    figures := m.figures
    cutCount := m.cutCount
    solveTime := clock p.history.length
    history := p.history }

end Progress

/-! ## Training a model -/

namespace Model

variable {α : Type} [Statistical α] [Seeded α]

/-- Trains a model: its result and the lines of the rounds that are reported.
The log is set up before anything else.  The model keeps what the rounds have
changed, also when one of them fails. -/
def train (plan : Plan α) (pool : Pool) (clock : Nat → α) :
    Transition (Model α) (TrainingResult α × List String) := do
  let _ ← Transition.outcome plan.logLevel
  Transition.of fun m =>
    let start : Progress α := { coordinator := Coordinator.start m pool plan.seed plan.timeout }
    let (r, p) := (Progress.run plan clock).perform start
    (r.map fun ending => (p.result clock ending, p.reported), p.coordinator.model)

/-- Simulates the policy of a model with a pool of workers. -/
def simulateWith (pool : Pool) (seed : Value) (n : Value) (requested : List Value) :
    Transition (Model α) (Table (Entry α)) :=
  Transition.of fun m =>
    let (r, c) := (Coordinator.simulate n requested pool.schedule).perform
      (Coordinator.start m pool seed)
    (r, c.model)

end Model

/-! ## Lines -/

namespace HistoryEntry

/-- A figure of a line, with six significant digits; only numbers are
figures of a line. -/
def figure (v : Value) : Except Failure String := do
  return Decimal.general 6 (← (← v.number).toFloat)

/-- The line of a round.  An interval without one of its ends has none. -/
def text (e : HistoryEntry Float) : Except Failure String := do
  let ends ← match e.figures.intervalValues with
    | lower :: upper :: _ => pure (lower, upper)
    | _ => throw .outOfRange
  return "iter " ++ Decimal.padLeft 4 (Decimal.intText e.iteration) ++ " | bound " ++
    (← figure e.figures.boundValue) ++ " | ci [" ++ (← figure ends.1) ++ ", " ++
    (← figure ends.2) ++ s!"] | cuts {e.cutCount}"

end HistoryEntry

/-! ## Plans out of options -/

namespace Plan

/-- A number of rounds, which has to be whole. -/
def readRounds (v : Value) : Except Failure Nat :=
  match v with
  | .bool _ | .int _ => Int.toNat <$> v.toInt
  | _ => .error .wrongKind

/-- The level that the log is set to, if a setting asks for one. -/
def readLevel (v : Value) : Except Failure (Option Int) :=
  v.given?.mapM Logging.readLevel

/-- Whether an elapsed time reaches a limit, both taken exactly; only numbers are
limits. -/
def reaches (limit : Value) (elapsed : Float) : Bool :=
  match limit.number with
  | .ok (.real x) => decide (x ≤ elapsed)
  | .ok (.whole i) => !elapsed.isNaN && !Value.floatBelow elapsed i
  | .error _ => false

/-- The plan of options. -/
def ofOptions (o : Options) : Except Failure (Plan Float) := do
  return {
    logLevel := readLevel o.logLevel
    selection := ← Selection.parse o.cutSelection
    rounds := readRounds o.maxIterations
    seed := o.seed
    timeout := o.timeout
    backwardPasses := o.backwardPasses
    selectsAnew := o.cutSelectionFrequency.isDue
    forwardPasses := o.forwardPasses
    tests := o.convergenceFrequency.isDue
    judge := fun m => m.meets o.tolerance
    reports := o.logFrequency.divides
    line := HistoryEntry.text
    isOver := reaches o.timeLimit }

end Plan

/-! ## Messages -/

namespace TrainingResult

/-- The message at the start of a run. -/
def startText (m : Model Float) (pool : Pool) (selection : Selection) : String :=
  "training " ++ m.describe ++ s!" on {pool.size} workers, cut selection " ++ selection.name

/-- The message at the end of a run. -/
def endText (r : TrainingResult Float) : String :=
  "stopped: " ++ r.status ++ s!" after {r.iterations} iterations"

/-- The messages of a run that trained a model and reported some rounds. -/
def messages (r : TrainingResult Float) (m : Model Float) (pool : Pool) (selection : Selection)
    (reported : List String) : List String :=
  [startText m pool selection] ++ reported ++ [r.endText]

end TrainingResult

end Multistage
