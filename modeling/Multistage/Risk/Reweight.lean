/-
Multistage.Risk.Reweight — weights of a nested tail expectation.

Scenarios are visited from worst to best.  Each keeps the share `lambda` of
its probability; until the probability mass `beta` has been collected it also
gets `(1 - lambda) / beta` of the mass it contributes to the tail.  The
weights go into a buffer that may be longer than the scenarios.
-/
import Multistage.Sense
import Multistage.Risk.Batch

namespace Multistage

variable {α : Type} [Scalar α]

/-- The positions of the objective values from worst to best: descending for
costs, ascending for profits; equals keep their order. -/
def worstFirst (sense : Sense) (objectives : List α) : List Nat :=
  let keys := match sense with
    | .min => objectives.map (- ·)
    | .max => objectives
  ((keys.zipIdx).mergeSort fun a b => !Scalar.precedes b.1 a.1).map Prod.snd

/-- A buffer being filled, and the tail mass collected so far. -/
structure TailFill (α : Type) where
  buffer : List α
  collected : α

/-- Writes the weight of one scenario. -/
def TailFill.visit (lambda beta : α) (f : TailFill α) (i : Nat) (p : α) : TailFill α :=
  if f.collected < beta then
    let tail := Scalar.min p (beta - f.collected)
    { buffer := f.buffer.set i (lambda * p + (1 - lambda) / beta * tail)
      collected := f.collected + tail }
  else { f with buffer := f.buffer.set i (lambda * p) }

/-- Visits scenarios in the given order; a position without a probability is
out of range. -/
def TailFill.run (lambda beta : α) (probabilities : List α) :
    List Nat → TailFill α → Except Failure (TailFill α)
  | [], f => .ok f
  | i :: rest, f =>
    match probabilities[i]? with
    | some p => TailFill.run lambda beta probabilities rest (f.visit lambda beta i p)
    | none => .error .outOfRange

/-- Refuses a buffer that is too short for the scenarios. -/
def checkBuffer {β : Type} (buffer probabilities : List β) : Except Failure Unit :=
  if buffer.length < probabilities.length then
    .error (.mismatched (.bufferLength buffer.length probabilities.length))
  else .ok ()

/-- Fills the start of a buffer with the nested tail weights of the
scenarios. -/
def reweight (buffer : List α) (sense : Except Failure Sense) (probabilities objectives : List α)
    (lambda beta : α) : Except Failure (List α) := do
  checkBuffer buffer probabilities
  let s ← sense
  let f ← TailFill.run lambda beta probabilities (worstFirst s objectives) ⟨buffer, 0⟩
  return f.buffer

end Multistage
