/-
Multistage.Tensor — rectangular arrays of numbers.

A tensor is a shape and its entries in row order.  Nested lists become a
tensor when all lists at one depth have one length; otherwise the leading
dimensions that are still regular are reported.
-/
import Multistage.Scalar
import Multistage.Value.Unified

namespace Multistage

-- Powers and products are the plain ones, also where a library of algebra offers its own.
attribute [local instance (high)] instPowNat One.ofOfNat1

/-- A rectangular array: lengths of its dimensions and entries, last index
fastest. -/
structure Tensor (α : Type) where
  shape : List Nat
  entries : List α
  deriving Repr, DecidableEq

namespace Tensor

variable {α : Type}

/-! ## Basic shapes -/

/-- A tensor with one dimension. -/
def vector (xs : List α) : Tensor α := ⟨[xs.length], xs⟩

/-- Rows of a given width under one another. -/
def ofRows (width : Nat) (rows : List (List α)) : Tensor α :=
  ⟨[rows.length, width], rows.flatten⟩

/-- Number of dimensions. -/
def rank (t : Tensor α) : Nat := t.shape.length

/-- The entries cut into rows of one length. -/
def chunks (width : Nat) : Nat → List α → List (List α)
  | 0, _ => []
  | count + 1, xs => xs.take width :: chunks width count (xs.drop width)

/-- The rows of a tensor with two dimensions; a vector is one row, a number
one row of one entry. -/
def rows (t : Tensor α) : List (List α) :=
  match t.shape with
  | [n, width] => chunks width n t.entries
  | _ => [t.entries]

/-- The tensor with at least two dimensions. -/
def atLeast2 (t : Tensor α) : Tensor α :=
  match t.shape with
  | [] => ⟨[1, 1], t.entries⟩
  | [n] => ⟨[1, n], t.entries⟩
  | _ => t

/-- The length of the first dimension; a number has none. -/
def leading? (t : Tensor α) : Option Nat := t.shape.head?

/-- Number of parts along the first dimension. -/
def size (t : Tensor α) : Nat := t.leading?.getD 0

/-- The parts of a tensor along its first dimension. -/
def parts (t : Tensor α) : List (Tensor α) :=
  match t.shape with
  | [] => []
  | n :: rest => (chunks rest.prod n t.entries).map (Tensor.mk rest)

/-- Arrays of one shape as the parts of a new array. -/
def stack (ts : List (Tensor α)) : Except Failure (Tensor α) :=
  let shape := (ts.head?.map Tensor.shape).getD []
  if ts.all fun t => t.shape == shape then
    .ok ⟨ts.length :: shape, ts.flatMap Tensor.entries⟩
  else .error (.badValue "setting an array element with a sequence")

/-- Entries of a shape as nested lists of values. -/
def nested (entry : α → Value) (shape : List Nat) (xs : List α) : Value :=
  match shape with
  | [] => (xs.head?.map entry).getD .null
  | n :: rest => .list ((chunks rest.prod n xs).map (nested entry rest))

/-- The tensor as nested lists of values. -/
def toValue (entry : α → Value) (t : Tensor α) : Value := nested entry t.shape t.entries

/-! ## Spreading -/

/-- The shape that two shapes, last dimension first, spread to: lengths have to
agree, or one of them is one. -/
def spreadShape : List Nat → List Nat → Option (List Nat)
  | [], bs => some bs
  | as, [] => some as
  | a :: as, b :: bs =>
    if a = b ∨ b = 1 then (spreadShape as bs).map (a :: ·)
    else if a = 1 then (spreadShape as bs).map (b :: ·)
    else none

/-- Entries of a shape, repeated along every dimension that grows. -/
def spreadEntries : List Nat → List Nat → List α → List α
  | a :: as, n :: ns, xs =>
    let parts := (chunks as.prod a xs).map (spreadEntries as ns)
    if a = 1 then (List.replicate n parts.flatten).flatten else parts.flatten
  | _, _, xs => xs

/-- The entries of a tensor spread to a shape with at least as many
dimensions. -/
def spread (t : Tensor α) (shape : List Nat) : List α :=
  spreadEntries (List.replicate (shape.length - t.rank) 1 ++ t.shape) shape t.entries

/-- The pairs of entries of two tensors spread over one another, none when the
shapes do not fit. -/
def zipSpread {β : Type} (a : Tensor α) (b : Tensor β) : Option (List (α × β)) :=
  (spreadShape a.shape.reverse b.shape.reverse).map fun shape =>
    (a.spread shape.reverse).zip (b.spread shape.reverse)

/-- Whether two shapes spread over one another. -/
def fit (a b : List Nat) : Bool := (spreadShape a.reverse b.reverse).isSome

/-! ## Nested lists -/

/-- The longest common start of two shapes. -/
def commonStart : List Nat → List Nat → List Nat
  | a :: as, b :: bs => if a = b then a :: commonStart as bs else []
  | _, _ => []

mutual

/-- The leading dimensions along which a value is regular. -/
def regularShape : Value → List Nat
  | .list items => items.length :: sharedShape items
  | _ => []

/-- The leading dimensions that all items share. -/
def sharedShape : List Value → List Nat
  | [] => []
  | [v] => regularShape v
  | v :: rest => commonStart (regularShape v) (sharedShape rest)

end

/-- The values at a depth; none where a list goes deeper or not so deep. -/
def leavesAt : Nat → Value → Option (List Value)
  | 0, .list _ => none
  | 0, v => some [v]
  | depth + 1, .list items => (items.mapM (leavesAt depth)).map List.flatten
  | _ + 1, _ => none

/-- The largest number of dimensions. -/
def maxRank : Nat := 64

/-- Whether the bytes of an array of doubles can be counted with 63 bits;
lengths of zero are left out. -/
def fitsMemory (lengths : List Nat) : Bool :=
  lengths.length ≤ maxRank && decide (8 * (lengths.filter (· ≠ 0)).prod < 2 ^ (63 : Nat))

/-- The text of a failure to see a rectangular array in nested lists. -/
def raggedText (shape : List Nat) : String :=
  "setting an array element with a sequence. The requested array " ++
    (if maxRank ≤ shape.length then s!"would exceed the maximum number of dimension of {maxRank}."
    else s!"has an inhomogeneous shape after {shape.length} dimensions. The detected shape was " ++
      Text.shapeText (shape.map Int.ofNat) ++ " + inhomogeneous part.")

/-- The nested lists as shape and values, in row order. -/
def ofNested (v : Value) : Except Failure (Tensor Value) :=
  let shape := (regularShape v).take maxRank
  match leavesAt shape.length v with
  | some leaves => .ok ⟨shape, leaves⟩
  | none => .error (.badValue (raggedText shape))

/-- The nested lists as an array of values of one kind. -/
def unified (v : Value) : Except Failure (Tensor Value) := do
  let t ← ofNested v
  return ⟨t.shape, ← Value.unify t.entries⟩

/-- One entry of an array of doubles; a missing value is not a number, and a
list is no entry. -/
def entryFloat : Value → Except Failure Float
  | .null => .ok Binary64.nan
  | .list _ => .error (.badValue "setting an array element with a sequence")
  | v => v.toFloat

/-- The nested lists as an array of doubles. -/
def ofValue (v : Value) : Except Failure (Tensor Float) := do
  let t ← ofNested v
  let xs ← t.entries.mapM entryFloat
  return ⟨t.shape, xs⟩

/-- One entry of an array of indices, which has 64 bits. -/
def entryIndex (v : Value) : Except Failure Int := do
  let i ← v.toInt
  if i < -(2 ^ (63 : Nat)) ∨ 2 ^ (63 : Nat) ≤ i then throw .tooLarge
  return i

/-- The nested lists as an array of indices. -/
def indicesOfValue (v : Value) : Except Failure (Tensor Int) := do
  let t ← ofNested v
  let xs ← t.entries.mapM entryIndex
  return ⟨t.shape, xs⟩

/-- The numbers of nested lists in row order. -/
def flatten (v : Value) : Except Failure (List Float) := do
  return (← ofValue v).entries

end Tensor

end Multistage
