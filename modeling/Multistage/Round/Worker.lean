/-
Multistage.Round.Worker — what a worker does in a round.

A worker gets a configuration, a copy of the cut stores and a seed.  It makes
a model of its own from them and hands back plain data: the cuts and points it
has added, the objectives it has sampled, or a table.
-/
import Multistage.Model.Blueprint
import Multistage.Policy.Backward
import Multistage.Policy.Bound
import Multistage.Policy.Simulation

namespace Multistage

/-- What a worker is given. -/
structure Assignment (α : Type) where
  snapshot : Configuration α
  stores : Grid (Store α)
  passes : Int
  seed : Value

namespace Assignment

variable {α : Type} [Scalar α]

/-- The worker's own model. -/
def ownModel (a : Assignment α) : Except Failure (Model α) := do
  (← a.snapshot.rebuild).withStores a.stores

/-- What was added to every store since it had the size it has in a grid. -/
def deltas (before after : Grid (Store α)) : Grid (Delta α) :=
  List.zipWith
    (List.zipWith fun (s s' : Store α) => s'.deltaSince s.cuts.length s.points.length)
    before after

/-- Backward passes, numbered from `k` on.  After a pass whose number is due
the cuts are selected anew. -/
def backwardPasses (selection : Selection) (due : Nat → Except Failure Bool) :
    Nat → Nat → Transition (Play α) Unit
  | 0, _ => return
  | n + 1, k => do
    discard backwardPass
    if ← Transition.outcome (due k) then Play.onModel (Model.reload selection true)
    backwardPasses selection due n (k + 1)

/-- A number of backward passes over stores that have just been handed out:
before the first one the cuts are selected by the votes there are. -/
def backwardRun (selection : Selection) (due : Nat → Except Failure Bool) (n : Nat) :
    Transition (Play α) Unit := do
  Play.onModel (Model.reload selection false)
  backwardPasses selection due n 1

/-- The worker's own model after its backward passes. -/
def finalModel [Seeded α] (a : Assignment α) (selection : Selection)
    (due : Nat → Except Failure Bool) : Except Failure (Model α) := do
  let model ← a.ownModel
  let draws ← Draws.ofSeed a.seed
  let (r, p) := (backwardRun selection due a.passes.toNat).perform ⟨model, draws⟩
  r
  return p.model

/-- The cuts and points that the worker's backward passes add. -/
def backward [Seeded α] (a : Assignment α) (selection : Selection)
    (due : Nat → Except Failure Bool) : Except Failure (Grid (Delta α)) := do
  return deltas a.stores (← a.finalModel selection due).stores

/-- The worker's own model with all cuts loaded. -/
def loadedModel (a : Assignment α) : Except Failure (Model α) := do
  let (r, model) := (Model.reload .all true).perform (← a.ownModel)
  r
  return model

/-- The objectives of the paths that the worker samples. -/
def forward [Seeded α] (a : Assignment α) : Except Failure (List α) := do
  let model ← a.loadedModel
  let draws ← Draws.ofSeed a.seed
  ((model.sampleObjectives a.passes.toNat).perform draws).1

/-- The table of the paths that the worker samples. -/
def simulate [Seeded α] (a : Assignment α) (requested : List Value) :
    Except Failure (Table (Entry α)) := do
  let model ← a.loadedModel
  let draws ← Draws.ofSeed a.seed
  ((model.simulate a.passes.toNat requested).perform draws).1

end Assignment

end Multistage
