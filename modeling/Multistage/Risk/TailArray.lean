/-
Multistage.Risk.TailArray — tail weights where arrays stand for numbers.

Objective values, probabilities and the buffer may have further dimensions.
With further dimensions of the objective values, what is visited is an array
of positions along their last dimension; with further dimensions of the
probabilities, the weight of a position is an array.  Weights have to fit
where they are written, and the tail mass has to be one number whenever it is
compared.
-/
import Multistage.Risk.Reweight

namespace Multistage

namespace Tensor

-- Products are the plain ones, also where a library of algebra offers its own.
attribute [local instance (high)] One.ofOfNat1

variable {α β : Type}

/-- The tensor with a function applied to its entries. -/
def map (f : α → β) (t : Tensor α) : Tensor β := ⟨t.shape, t.entries.map f⟩

/-- Two tensors spread over one another and combined entry by entry. -/
def combine {γ : Type} (f : α → β → γ) (a : Tensor α) (b : Tensor β) :
    Except Failure (Tensor γ) :=
  match spreadShape a.shape.reverse b.shape.reverse, zipSpread a b with
  | some shape, some pairs => .ok ⟨shape.reverse, pairs.map fun (x, y) => f x y⟩
  | _, _ => .error (.badValue "operands could not be broadcast together")

/-- The truth of an array, which has to be a single one. -/
def truth (t : Tensor Bool) : Except Failure Bool :=
  match t.entries with
  | [b] => .ok b
  | _ => .error (.badValue "the truth value of an array is ambiguous")

/-- The parts of a tensor at positions along its first dimension. -/
def gather (t : Tensor α) (places : Tensor Nat) : Except Failure (Tensor α) := do
  let parts ← places.entries.mapM fun i =>
    match t.parts[i]? with
    | some part => .ok part.entries
    | none => .error Failure.outOfRange
  return ⟨places.shape ++ t.shape.tail, parts.flatten⟩

/-- Whether a shape spreads to another one; dimensions in excess have to be of
length one. -/
def fitsInto (shape target : List Nat) : Bool :=
  let excess := shape.length - target.length
  (shape.take excess).all (· == 1) &&
    spreadShape (shape.drop excess).reverse target.reverse == some target.reverse

/-- The tensor with other parts at positions along its first dimension.  Their
values are spread; a single entry takes a single number only, and an empty
array of positions takes anything. -/
def scatter (t : Tensor α) (places : Tensor Nat) (values : Tensor α) :
    Except Failure (Tensor α) := do
  let target := places.shape ++ t.shape.tail
  if places.entries.isEmpty then return t
  if target.isEmpty ∧ values.rank ≠ 0 ∨ !fitsInto values.shape target then
    throw (.badValue "setting an array element with a sequence")
  let trimmed : Tensor α := ⟨values.shape.drop (values.rank - target.length), values.entries⟩
  let width := t.shape.tail.prod
  let written := chunks width places.entries.length (trimmed.spread target)
  let parts := (places.entries.zip written).foldl
    (fun parts (i, part) => parts.set i part) (t.parts.map Tensor.entries)
  return ⟨t.shape, parts.flatten⟩

end Tensor

variable {α : Type} [Scalar α]

section Places

attribute [local instance (high)] One.ofOfNat1

/-- The positions of objective values along their last dimension, from worst
to best. -/
def worstPlaces (sense : Sense) (objectives : Tensor α) : Tensor Nat :=
  let shape := if objectives.shape.isEmpty then [1] else objectives.shape
  let rows := Tensor.chunks (shape.getLastD 0) shape.dropLast.prod objectives.entries
  ⟨shape, rows.flatMap (worstFirst sense)⟩

end Places

/-- An array being filled, and the tail mass collected so far. -/
structure ArrayFill (α : Type) where
  buffer : Tensor α
  collected : Tensor α

/-- An array of values added to another one, whose shape stays. -/
def addInPlace (a b : Tensor α) : Except Failure (Tensor α) := do
  let sum ← Tensor.combine (· + ·) a b
  if sum.shape ≠ a.shape then throw (.badValue "operands could not be broadcast together")
  return sum

/-- Writes the weights of an array of positions. -/
def ArrayFill.visit (lambda beta : α) (probabilities : Tensor α) (f : ArrayFill α)
    (places : Tensor Nat) : Except Failure (ArrayFill α) := do
  let share ← probabilities.gather places
  let buffer ← f.buffer.scatter places (share.map (lambda * ·))
  if ← (f.collected.map fun c => decide (c < beta)).truth then
    let left := f.collected.map (beta - ·)
    let isShort ← (← Tensor.combine (fun l p => decide (l < p)) left share).truth
    let tail := if isShort then left else share
    let raised ← addInPlace (← buffer.gather places) (tail.map ((1 - lambda) / beta * ·))
    let buffer ← buffer.scatter places raised
    let collected ←
      if f.collected.rank = 0 then Tensor.combine (· + ·) f.collected tail
      else addInPlace f.collected tail
    return { buffer, collected }
  else return { f with buffer }

/-- Refuses an array that is a single number. -/
def checkSized (t : Tensor α) : Except Failure Unit :=
  if t.rank = 0 then .error .wrongKind else .ok ()

/-- Fills the start of a buffer with the nested tail weights of scenarios. -/
def reweightArray (buffer : Tensor α) (sense : Except Failure Sense)
    (probabilities objectives : Tensor α) (lambda beta : α) : Except Failure (Tensor α) := do
  let places := worstPlaces (← sense) objectives
  let f ← places.parts.foldlM (ArrayFill.visit lambda beta probabilities) ⟨buffer, ⟨[], [0]⟩⟩
  return f.buffer

/-- Fills the start of a buffer from values.  The objectives are read once the
buffer is known to be long enough. -/
def reweightOf (buffer sense probabilities objectives lambda beta : Value) :
    Except Failure (Tensor Float) := do
  let buffer ← Tensor.ofValue buffer
  let probabilities ← Tensor.ofValue probabilities
  let (lambda, beta) := (← lambda.toFloat, ← beta.toFloat)
  checkSized buffer
  checkSized probabilities
  checkBuffer buffer.parts probabilities.parts
  let objectives ← Tensor.ofValue objectives
  let sense := Sense.parse sense
  if buffer.rank = 1 ∧ probabilities.rank = 1 ∧ objectives.rank = 1 then
    let filled ←
      reweight buffer.entries sense probabilities.entries objectives.entries lambda beta
    return ⟨buffer.shape, filled⟩
  else reweightArray buffer sense probabilities objectives lambda beta

end Multistage
