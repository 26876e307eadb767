/-
Multistage.Round.Merge — folding the workers' cuts into a model.
-/
import Multistage.Model.Basic

namespace Multistage

namespace Model

variable {α : Type} [Scalar α]

/-- Merges deltas into the store of a pair and counts its votes anew.  True
when something was added. -/
def mergeAt (t i : Nat) (deltas : List (Delta α)) : Transition (Model α) Bool := do
  let sense := (← get).configuration.sense
  onStore t i do
    let changed ← Store.merge deltas
    modify (Store.recount sense)
    return changed

/-- Merges the workers' deltas into the stores, pair by pair, stages first. -/
def mergeAll (grids : List (Grid (Delta α))) : Transition (Model α) Unit := do
  let m ← get
  (Grid.pairs m.stageCount m.markovCount).forM fun (t, i) => do
    let deltas ← Transition.outcome (grids.mapM fun g => g.entry t i)
    discard (mergeAt t i deltas)

end Model

/-- The average of the workers' times, zero without workers. -/
def averageTime (times : List Value) : Except Failure Float := do
  if times.isEmpty then return 0.0
  let total ← Number.total (← times.mapM Value.number)
  total.quotient (.whole times.length)

end Multistage
