/-
Multistage.Policy.Simulation — tables of sampled paths.

A simulation samples paths, one per replication, and lays them out in columns.
The total objectives form a flat column; Markov states, scenarios, stage
objectives and every requested variable have one list per stage with an entry
per replication.  A variable that is requested twice, or under the name of
another column, shares the column of that name and adds its entries to it.
-/
import Multistage.Policy.Forward
import Multistage.Report.Table

namespace Multistage

/-- An entry of a simulation table. -/
inductive Entry (α : Type) where
  | index (k : Nat)
  | amount (a : α)
  deriving Repr, DecidableEq

namespace Simulation

variable {α : Type}

/-- The columns that every table has beside the total objectives. -/
def builtIn : List Value := ["markov", "scenario", "stage_objective"]

/-- The entry of a visit in a column that every table has. -/
def builtInCell? (v : Visit α) (key : Value) : Option (Entry α) :=
  match key with
  | .string "markov" => some (.index v.markov)
  | .string "scenario" => some (.index v.scenario)
  | .string "stage_objective" => some (.amount v.solution.stageObjective)
  | _ => none

/-- Refuses a path on which a requested variable is not reported. -/
def checkReported (requested : List Value) (path : Trajectory α) : Except Failure Unit :=
  (path.mapIdx fun t v => (t, v)).forM fun (t, v) =>
    requested.forM fun name =>
      if (v.solution.values.get? name).isSome then .ok ()
      else .error (.misconfigured (.unreportedVariable t name))

/-- The entries that a visit adds to the column of a name: that of the column
itself, then one for each request of a variable of that name. -/
def visitEntries (requested : List Value) (key : Value) (v : Visit α) : List (Entry α) :=
  (builtInCell? v key).toList ++
    (requested.filter key.isSame).filterMap fun name =>
      (v.solution.values.get? name).map Entry.amount

/-- The entries of all replications in the column of a name at a stage. -/
def stageEntries (requested : List Value) (key : Value) (paths : List (Trajectory α)) (t : Nat) :
    List (Entry α) :=
  paths.flatMap fun path => (path[t]?.map (visitEntries requested key)).getD []

/-- One list of entries per stage. -/
def stageLists (requested : List Value) (key : Value) (stages : Nat)
    (paths : List (Trajectory α)) : List (Nested (Entry α)) :=
  (List.range stages).map fun t =>
    .list ((stageEntries requested key paths t).map Nested.entry)

variable [Scalar α]

/-- The total objective of every replication. -/
def totals (paths : List (Trajectory α)) : List (Nested (Entry α)) :=
  paths.map fun path => .entry (.amount path.objective)

/-- The column of a name. -/
def column (requested : List Value) (stages : Nat) (paths : List (Trajectory α))
    (key : Value) : Nested (Entry α) :=
  if key = objectiveKey then
    .list ((if requested.contains key then stageLists requested key stages paths else []) ++
      totals paths)
  else .list (stageLists requested key stages paths)

/-- The table of sampled paths. -/
def table (requested : List Value) (stages : Nat) (paths : List (Trajectory α)) :
    Table (Entry α) :=
  Named.ofPairs ((objectiveKey :: builtIn ++ requested).map fun key =>
    (key, column requested stages paths key))

/-- The total objectives in a table; lists without entries have none. -/
def objectives (t : Table (Entry α)) : Except Failure (List α) :=
  match t.get? objectiveKey with
  | some (.list items) => items.flatMapM fun e => match e with
    | .entry (.amount a) => .ok [a]
    | .list [] => .ok []
    | _ => .error (.badValue "the objectives are not numbers")
  | _ => .error .wrongKind

end Simulation

/-- Simulates the policy a number of times and reports the requested
variables. -/
def Model.simulate {α : Type} [Scalar α] (m : Model α) (n : Nat) (requested : List Value) :
    Transition (Draws α) (Table (Entry α)) := do
  Transition.outcome (requested.forM Named.checkName)
  let paths ← Transition.times n do
    let path ← m.trajectory
    Transition.outcome (Simulation.checkReported requested path)
    return path
  return Simulation.table requested m.stageCount paths

end Multistage
