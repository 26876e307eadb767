/-
Multistage.Random.Sampling — drawing an index.

One number of the stream is scaled by the total mass; the index drawn is the
number of cumulative sums that do not exceed it, found by bisection and kept
inside the vector.
-/
import Multistage.Random.Draws
import Multistage.Tensor

namespace Multistage

/-- The boundary between the places where a test holds and those after, by
bisection between `low` and `high`. -/
def bisect (holds : Nat → Bool) (low high : Nat) : Nat :=
  if low < high then
    let middle := low + (high - low) / 2
    if holds middle then bisect holds (middle + 1) high else bisect holds low middle
  else low
termination_by high - low

variable {α : Type} [Scalar α]

/-- The sums of the first entries, each including the next entry. -/
def runningSums : α → List α → List α
  | _, [] => []
  | sum, a :: rest => (sum + a) :: runningSums (sum + a) rest

/-- The cumulative sums of a vector. -/
def cumulative : List α → List α
  | [] => []
  | a :: rest => a :: runningSums a rest

/-- The index that a number in `[0, 1)` selects from a vector of weights. -/
def indexOf (weights : List α) (u : α) : Option Nat :=
  let sums := (cumulative weights).toArray
  match sums.back? with
  | none => none
  | some mass =>
    let target := u * mass
    let reached (k : Nat) : Bool := match sums[k]? with
      | some s => !Scalar.precedes target s
      | none => false
    some (Nat.min (bisect reached 0 sums.size) (weights.length - 1))

/-- Draws an index with probability in proportion to its weight. -/
def sampleIndex (weights : List α) : Transition (Draws α) Nat := do
  let u ← Draws.next
  match indexOf weights u with
  | some k => return k
  | none => throw .outOfRange

/-- Draws an index of the first dimension of an array: all entries have
weights, and an index beyond the dimension becomes the last one of it. -/
def sampleLeading (t : Tensor α) : Transition (Draws α) Nat := do
  match t.shape with
  | [] => throw .wrongKind
  | n :: _ => return Nat.min (← sampleIndex t.entries) (n - 1)

end Multistage
