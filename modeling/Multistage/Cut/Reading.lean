/-
Multistage.Cut.Reading — cut stores out of values.

Cuts are read before anything is done with them; a sample point is read only
when its turn comes, so a cut of the wrong dimension is reported before a
point that is unreadable.
-/
import Multistage.Cut.Store

namespace Multistage

/-- Cuts of a list. -/
def Cut.readAll (v : Value) : Except Failure (List (Cut Float)) := v.items.mapM Cut.ofValue

namespace Delta

/-- A worker's findings from a pair of points and cuts. -/
def ofValue (v : Value) : Except Failure (Delta Float) := do
  let points ← (v.itemAt 0).items.mapM Tensor.flatten
  return ⟨points, ← Cut.readAll (v.itemAt 1)⟩

end Delta

/-- Votes out of a value; a missing one stands for none. -/
def Votes.ofValue? (v : Value) : Except Failure (Option Votes) :=
  match v with
  | .null => .ok none
  | v => return some (.given (← Tensor.unified v))

/-- Votes as a value, given an entry's form. -/
def Votes.toValue (entry : Value → Value) : Votes → Value
  | counted votes => .list (votes.map .int)
  | given votes => votes.toValue entry

namespace Store

/-- Adds a sample point that still has to be read. -/
def addPointOf (point : Value) : Transition (Store Float) Unit := do
  addPoint (← Transition.outcome (Tensor.flatten point))

/-- Adds a cut and, unless it is missing, the state it was built at. -/
def appendOf (cut point : Value) : Transition (Store Float) Unit := do
  addCut (← Transition.outcome (Cut.ofValue cut))
  match point with
  | .null => return
  | p => addPointOf p

/-- A store by the names of its parts in a record. -/
def ofRecord (v : Value) : Except Failure (Store Float) := do
  let cuts ← Cut.readAll (v.field "cuts")
  let n ← (v.field "n_states").toInt
  let fill : Transition (Store Float) Unit := do
    cuts.forM addCut
    (v.field "points").items.forM addPointOf
  let (r, s) := fill.perform (empty n)
  r
  return s

/-- Where a part of a list starts: at a position, or at the front. -/
def readStart (v : Value) : Except Failure Int :=
  match v, v.number with
  | .null, _ => .ok 0
  | _, .ok (.whole i) => .ok i
  | _, _ => .error .wrongKind

/-- What was added since a store had given numbers of cuts and points. -/
def deltaSinceOf (s : Store Float) (cutCount pointCount : Value) :
    Except Failure (Delta Float) := do
  let points ← readStart pointCount
  return s.deltaSince (← readStart cutCount) points

/-- The findings of workers, each checked for the dimension of a store as soon
as it is read; all cuts are read first. -/
def readDeltas (s : Store Float) (deltas : List Value) : Except Failure (List (Delta Float)) := do
  let cuts ← deltas.mapM fun d => Cut.readAll (d.itemAt 1)
  (deltas.zip cuts).mapM fun (d, cuts) => do
    let points ← (d.itemAt 0).items.mapM fun v => do
      let p ← Tensor.flatten v
      s.checkPoint p
      return p
    cuts.forM s.checkCut
    return ⟨points, cuts⟩

/-- Joins findings that still have to be read into the store. -/
def mergeOf (deltas : List Value) : Transition (Store Float) Bool := do
  merge (← Transition.outcome ((← get).readDeltas deltas))

end Store

end Multistage
