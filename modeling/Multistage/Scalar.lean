/-
Multistage.Scalar — the arithmetic that a policy is computed in.

Every quantity of the library (costs, states, duals, probabilities) is an
element of one type `α` with the operations of `Scalar`.  Programs run over
the doubles; statements about exact arithmetic instantiate `α` with an
ordered field.  Nothing here assumes a law: an order may leave an element
incomparable with itself (`Scalar.isNaN`), and sums are always formed in the
order in which they are written.
-/

namespace Multistage

/-! ## Limits -/

/-- One end of a range: a number, or no limit on the low or on the high
side. -/
inductive Limit (α : Type) where
  | finite (value : α)
  | negInf
  | posInf
  deriving Repr, DecidableEq

namespace Limit

variable {α : Type}

/-- The number that the limit puts on its side, none when the limit is
infinite in either direction. -/
def value? : Limit α → Option α
  | finite a => some a
  | negInf => none
  | posInf => none

end Limit

/-! ## Scalars -/

/-- Arithmetic with an order and an equality test.  `limit` tells an infinite
element from a number; an exact field has no infinite element. -/
class Scalar (α : Type) extends Zero α, One α, Neg α, Add α, Sub α, Mul α, Div α,
    LT α, LE α, BEq α where
  decideLT : (a b : α) → Decidable (a < b)
  decideLE : (a b : α) → Decidable (a ≤ b)
  ofNat : Nat → α
  limit : α → Limit α

namespace Scalar

variable {α : Type} [Scalar α]

instance : DecidableLT α := decideLT

instance : DecidableLE α := decideLE

/-- An element that differs from itself. -/
def isNaN (a : α) : Bool := !(a == a)

/-- The order used for sorting and searching: the usual one, with an element
that differs from itself after all others. -/
def precedes (a b : α) : Bool := decide (a < b) || (isNaN b && !isNaN a)

/-- The smaller of two elements; the first unless the second is below it. -/
def min (a b : α) : α := if b < a then b else a

/-- The larger of two elements; the first unless the second is above it. -/
def max (a b : α) : α := if a < b then b else a

/-- Distance from zero. -/
def magnitude (a : α) : α := if a < 0 then -a else a

/-- The elements added from left to right, starting at zero. -/
def total (xs : List α) : α := xs.foldl (· + ·) 0

/-- The element that a limit is.  The infinite ones are quotients by zero, which an
arithmetic without infinities does not have. -/
def ofLimit : Limit α → α
  | .finite a => a
  | .negInf => -(1 / 0)
  | .posInf => 1 / 0

/-- The sum of the products of corresponding entries.  A single product
stands alone, so its sign survives when it is a zero. -/
def dot : List α → List α → α
  | [a], [b] => a * b
  | as, bs => total (List.zipWith (· * ·) as bs)

end Scalar

/-! ## Doubles -/

instance : Scalar Float where
  zero := 0.0
  one := 1.0
  decideLT := Float.decLt
  decideLE := Float.decLe
  ofNat := Float.ofNat
  limit x := if x.isInf then (if x < 0.0 then .negInf else .posInf) else .finite x

/-! ## Statistics -/

/-- What a confidence interval needs beside arithmetic: square roots and the
quantile of Student's distribution, given the level and the degrees of
freedom. -/
class Statistical (α : Type) extends Scalar α where
  sqrt : α → α
  studentQuantile : α → Nat → α

/-- Statistics of doubles with a quantile function. -/
@[reducible] def Statistical.ofQuantile (studentQuantile : Float → Nat → Float) :
    Statistical Float where
  sqrt := Float.sqrt
  studentQuantile

end Multistage
