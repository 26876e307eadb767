/-
Multistage.Risk.Batch — the scenario results that one cut is built from.

A batch holds a reference state and, for each scenario of the next stage, the
duals, the objective value and the probability.  `fault?` decides whether
four arrays of any shape form a batch, and names the first thing that is
wrong.  It counts scenarios along the first dimension, so a batch may hold an
array where a number is meant; `checkSum` says what comes of that.
-/
import Multistage.Cut.Basic

namespace Multistage

/-- Scenario results at a reference state.  An objective value and a
probability are single numbers, whose shape is empty; the check of a batch
leaves open that they are arrays, whose entries then follow one another. -/
structure Batch (α : Type) where
  state : Point α
  duals : List (List α)
  objectives : List α
  probabilities : List α
  objectiveShape : List Nat := []
  probabilityShape : List Nat := []
  deriving Repr

/-- Why four arrays form no batch. -/
inductive BatchFault where
  | unreadable (text : String)
  | stateShape (shape : List Nat)
  | dualShape (shape : List Nat)
  | unsized
  | noScenario
  | lengths (duals objectives probabilities : Nat)
  | dualWidth (given states : Nat)
  | negativeProbability
  deriving Repr, DecidableEq

/-- The wording of a batch fault. -/
def BatchFault.message : BatchFault → String
  | unreadable text => text
  | stateShape shape => "x must be a vector, got shape " ++ Text.shapeText (shape.map Int.ofNat)
  | dualShape shape =>
    "pi must be a sequence of vectors, got shape " ++ Text.shapeText (shape.map Int.ofNat)
  | unsized => "len() of unsized object"
  | noScenario => "at least one scenario is required"
  | lengths a b c => s!"pi, theta and prob have lengths {a}, {b}, {c}"
  | dualWidth given n => s!"duals have {given} entries but the state has {n}"
  | negativeProbability => "prob contains negative values"

namespace Batch

variable {α : Type} [Scalar α]

/-- The length along the first dimension. -/
def leading (t : Tensor α) : Except BatchFault Nat :=
  match t.shape with
  | [] => .error .unsized
  | n :: _ => .ok n

/-- Checks reference state, duals, objective values and probabilities, in
this order.  With a single state dimension the duals may be a plain vector. -/
def check (x pi theta prob : Tensor α) : Except BatchFault Unit := do
  let n ← match x.shape with
    | [n] => .ok n
    | shape => .error (.stateShape shape)
  let (count, width) ← match pi.shape with
    | [k] => if n = 1 then .ok (k, 1) else .error (.dualShape [k])
    | [k, w] => .ok (k, w)
    | shape => .error (.dualShape shape)
  let scenarios ← leading prob
  if scenarios = 0 then throw .noScenario
  let objectives ← leading theta
  if ¬(count = objectives ∧ objectives = scenarios) then
    throw (.lengths count objectives scenarios)
  if width ≠ n then throw (.dualWidth width n)
  if prob.entries.any fun p => decide (p < 0) then throw .negativeProbability

/-- What is wrong with four arrays, if anything. -/
def fault? (x pi theta prob : Tensor α) : Option BatchFault :=
  match check x pi theta prob with
  | .ok _ => none
  | .error f => some f

/-- The batch that four arrays form. -/
def ofTensors (x pi theta prob : Tensor α) : Except Failure (Batch α) :=
  match check x pi theta prob with
  | .error f => .error (.mismatched (.batch f.message))
  | .ok _ => .ok
    { state := x.entries
      duals := Tensor.chunks x.entries.length (prob.shape.headD 0) pi.entries
      objectives := theta.entries
      probabilities := prob.entries
      objectiveShape := theta.shape.tail
      probabilityShape := prob.shape.tail }

/-! ## Arrays in place of numbers -/

/-- Number of scenarios. -/
def size (b : Batch α) : Nat := b.duals.length

/-- True of a batch of single numbers. -/
def isPlain (b : Batch α) : Bool := b.objectiveShape.isEmpty && b.probabilityShape.isEmpty

/-- Why the weighted sum of a batch is no cut: arrays do not spread over one
another or over the duals, or the intercept is an array. -/
def checkSum (objectiveShape weightShape : List Nat) (states : Nat) : Except Failure Unit :=
  if objectiveShape.isEmpty && weightShape.isEmpty then .ok ()
  else if !Tensor.fit objectiveShape weightShape || !Tensor.fit [states] weightShape then
    .error (.badValue "operands could not be broadcast together")
  else .error .wrongKind

/-- The objective values as an array. -/
def objectiveArray (b : Batch α) : Tensor α := ⟨b.size :: b.objectiveShape, b.objectives⟩

/-- The probabilities as an array. -/
def probabilityArray (b : Batch α) : Tensor α := ⟨b.size :: b.probabilityShape, b.probabilities⟩

end Batch

/-! ## Batches from values -/

/-- The four arrays of a batch out of nested lists, in the order of the
arguments.  A number beyond the doubles is a failure, any other unreadable
entry a fault of the batch. -/
def Batch.readAll (x pi theta prob : Value) :
    Except Failure (Except BatchFault (Tensor Float × Tensor Float × Tensor Float × Tensor Float)) :=
  let all : Except Failure (Tensor Float × Tensor Float × Tensor Float × Tensor Float) := do
    return (← Tensor.ofValue x, ← Tensor.ofValue pi, ← Tensor.ofValue theta, ← Tensor.ofValue prob)
  match all with
  | .ok ts => .ok (.ok ts)
  | .error (.badValue text) => .ok (.error (.unreadable text))
  | .error .wrongKind => .ok (.error (.unreadable
      "float() argument must be a string or a real number, not 'dict'"))
  | .error e => .error e

/-- What is wrong with values that should form a batch, if anything. -/
def Batch.validate (x pi theta prob : Value) : Except Failure (Option BatchFault) := do
  match ← Batch.readAll x pi theta prob with
  | .error f => return some f
  | .ok (tx, tpi, ttheta, tprob) => return Batch.fault? tx tpi ttheta tprob

/-- The batch that values form. -/
def Batch.ofValues (x pi theta prob : Value) : Except Failure (Batch Float) := do
  match ← Batch.readAll x pi theta prob with
  | .error f => throw (.mismatched (.batch f.message))
  | .ok (tx, tpi, ttheta, tprob) => Batch.ofTensors tx tpi ttheta tprob

end Multistage
