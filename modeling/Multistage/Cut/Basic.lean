/-
Multistage.Cut.Basic — affine bounds of a value function.

A cut `v(x) = intercept + coefficients · x` bounds the value of the stages
to come: from below when costs are minimized, from above when profits are
maximized.  Cuts are compared by value, number by number, and sorted by
intercept first.
-/
import Multistage.Tensor

namespace Multistage

/-- An affine function of the state. -/
structure Cut (α : Type) where
  intercept : α
  coefficients : List α
  deriving Repr

/-- A state at which cuts were built. -/
abbrev Point (α : Type) := List α

namespace Cut

variable {α : Type} [Scalar α]

/-! ## Construction and value -/

/-- Number of state dimensions. -/
def stateCount (c : Cut α) : Nat := c.coefficients.length

/-- The cut evaluated at a state of its dimension. -/
def eval (c : Cut α) (x : Point α) : α := c.intercept + Scalar.dot c.coefficients x

/-- The cut evaluated at a state of any dimension. -/
def value (c : Cut α) (x : Point α) : Except Failure α :=
  if c.stateCount = x.length then .ok (c.eval x)
  else .error (.badValue "shapes not aligned")

/-- The cut evaluated at an array.  Only a vector has a value; with more
dimensions the second to last one has to agree with the cut before that
shows. -/
def valueAt (c : Cut α) (x : Tensor α) : Except Failure α :=
  match x.shape.reverse with
  | [] => .error .wrongKind
  | [_] => c.value x.entries
  | _ :: n :: _ =>
    if n = c.stateCount then .error .wrongKind else .error (.badValue "shapes not aligned")

/-- Intercept and coefficients in one list, the key by which cuts are
sorted. -/
def sortKey (c : Cut α) : List α := c.intercept :: c.coefficients

instance : BEq (Cut α) :=
  ⟨fun a b => a.intercept == b.intercept && a.coefficients == b.coefficients⟩

end Cut

/-- A cut from any number and any nested list of values of one kind, which is
flattened. -/
def Cut.ofValues (intercept coefficients : Value) : Except Failure (Cut Float) := do
  let a ← intercept.toFloat
  let t ← Tensor.unified coefficients
  let bs ← t.entries.mapM Value.toFloat
  return ⟨a, bs⟩

/-- A cut from a pair of intercept and coefficients. -/
def Cut.ofValue (v : Value) : Except Failure (Cut Float) := Cut.ofValues (v.itemAt 0) (v.itemAt 1)

/-! ## Order by value -/

variable {α : Type} [Scalar α]

/-- The order of words: the first difference decides, and a proper start
comes first. -/
def lexBelow : List α → List α → Bool
  | [], [] => false
  | [], _ :: _ => true
  | _ :: _, [] => false
  | a :: as, b :: bs => if a == b then lexBelow as bs else decide (a < b)

/-- Items in increasing order of their keys; equal keys keep their order. -/
def sortByKey {β : Type} (key : β → List α) (xs : List β) : List β :=
  xs.mergeSort fun a b => !lexBelow (key b) (key a)

end Multistage
