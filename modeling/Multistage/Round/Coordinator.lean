/-
Multistage.Round.Coordinator — rounds of backward, forward and simulation
passes.

A coordinator is the only one to change its model.  In a round it hands every
worker the same configuration and the same copy of the stores, waits for all
of them, and only then folds what they return into the model:

    idle → dispatching → awaiting workers → merging → post-processing → idle

A round in which a worker fails or the wait ends early changes nothing but the
count of rounds.  Worker `k` of round `r` draws from the seed
`seed + r * seedStride + k`.
-/
import Multistage.Round.Merge
import Multistage.Round.Pool
import Multistage.Round.Schedule
import Multistage.Round.Share
import Multistage.Round.Worker

namespace Multistage

/-- Where a round stands. -/
inductive Phase where
  | idle
  | dispatching
  | awaitingWorkers
  | merging
  | postProcessing
  deriving Repr, DecidableEq

/-- The name of a phase. -/
def Phase.name : Phase → String
  | idle => "idle"
  | dispatching => "dispatching"
  | awaitingWorkers => "awaiting_workers"
  | merging => "merging"
  | postProcessing => "post_processing"

/-- The distance between the seeds of two rounds. -/
def seedStride : Int := 1000003

/-- The schedule on which all workers of a pool complete in order; it is empty
if they cannot be listed. -/
def Pool.schedule (p : Pool) : Schedule :=
  if p.isListable then Schedule.inOrder p.size else []

/-- A model, the workers that compute its policy, and the configuration they
were last given. -/
structure Coordinator (α : Type) where
  model : Model α
  snapshot : Configuration α
  pool : Pool
  seed : Value
  timeout : Value
  phase : Phase := .idle
  rounds : Nat := 0

namespace Coordinator

variable {α β : Type}

/-- A coordinator at work on a model. -/
def start (model : Model α) (pool : Pool) (seed : Value) (timeout : Value := .null) :
    Coordinator α :=
  { model, snapshot := model.snapshot, pool, seed, timeout }

/-- Takes the configuration of the model for the workers anew. -/
def refresh (c : Coordinator α) : Coordinator α := { c with snapshot := c.model.snapshot }

/-- The seeds of the workers in the round that comes next; without a base seed
the workers have none. -/
def seeds (c : Coordinator α) : Except Failure (List Value) := do
  c.pool.checkListable
  match c.seed with
  | .null => return c.pool.workers.map fun _ => .null
  | seed =>
    let base ← (← seed.number).add (.whole (c.rounds * seedStride))
    c.pool.workers.mapM fun (k : Nat) => return (← base.add (.whole k)).toValue

/-! ## Rounds -/

/-- An operation on the model. -/
def onModel (op : Transition (Model α) β) : Transition (Coordinator α) β :=
  Transition.focus Coordinator.model (fun model c => { c with model }) op

/-- Enters a phase. -/
def enter (phase : Phase) : Transition (Coordinator α) Unit := modify fun c => { c with phase }

/-- A round: whatever happens, the coordinator is idle afterwards. -/
def round (body : Transition (Coordinator α) β) : Transition (Coordinator α) β :=
  Transition.of fun c =>
    let (r, c) := body.perform c
    (r, { c with phase := .idle })

/-- What a worker is given in a round. -/
def assignment (c : Coordinator α) (passes : Int) (seed : Value) : Assignment α :=
  ⟨c.snapshot, c.model.stores, passes, seed⟩

/-- What the workers are given in the round that comes next. -/
def assignments (c : Coordinator α) (passes : Int) : Except Failure (List (Assignment α)) := do
  return (← c.seeds).map (c.assignment passes)

/-- Has every worker run a task on its assignment, and waits for all of
them. -/
def dispatch (passes : Int) (task : Assignment α → Except Failure β) (schedule : Schedule) :
    Transition (Coordinator α) (List β) := do
  let c ← get
  let assignments ← Transition.outcome (c.assignments passes)
  modify fun c => { c with rounds := c.rounds + 1 }
  enter .dispatching
  enter .awaitingWorkers
  Transition.outcome (c.pool.distribute task assignments schedule c.timeout)

/-- The number of passes per worker, out of the number of passes of a
round. -/
def shareOf (c : Coordinator α) (n : Value) : Except Failure Int := do
  c.pool.checkListable
  iterationsPerWorker n (.int c.pool.size)

/-- The number of passes per worker in the round that comes next. -/
def share (n : Value) : Transition (Coordinator α) Int := do
  Transition.outcome ((← get).shareOf n)

variable [Statistical α] [Seeded α]

/-- Backward passes, spread over the workers.  Their cuts are merged, the
stage problems are loaded with a selection of all cuts, the first stage is
solved and the bound is set. -/
def backwardRound (n : Value) (selection : Selection) (due : Nat → Except Failure Bool)
    (schedule : Schedule) : Transition (Coordinator α) Unit := do
  let passes ← share n
  round do
    let grids ← dispatch passes (fun a => a.backward selection due) schedule
    enter .merging
    onModel (Model.mergeAll grids)
    enter .postProcessing
    onModel (Model.reload selection false)
    discard (onModel Model.solveFirstStage)
    discard (onModel Model.setBound)

/-- Forward passes, spread over the workers.  Keeps the confidence interval of
their objectives; answers whether the policy is judged to be good enough, and
how many passes were run. -/
def forwardRound (n : Value) (judge : Model α → Except Failure Bool) (schedule : Schedule) :
    Transition (Coordinator α) (Bool × Nat) := do
  let passes ← share n
  let samples ← round do
    let samples ← dispatch passes Assignment.forward schedule
    enter .merging
    let samples := samples.flatten
    enter .postProcessing
    discard (onModel (Model.setInterval samples))
    return samples
  return (← Transition.outcome (judge (← get).model), samples.length)

/-- Simulation passes, spread over the workers, who get the model's
configuration anew.  The workers' tables are joined. -/
def simulate (n : Value) (requested : List Value) (schedule : Schedule) :
    Transition (Coordinator α) (Table (Entry α)) := do
  modify refresh
  let passes ← share n
  round do
    let tables ← dispatch passes (fun a => a.simulate requested) schedule
    enter .merging
    Transition.outcome (Table.joinAll tables)

end Coordinator

end Multistage
