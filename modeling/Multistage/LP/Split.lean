/-
Multistage.LP.Split — programs with one-sided rows, as solvers take them.

A row whose limits agree becomes an equation.  Any other row contributes one
inequality for each finite limit: first all upper limits, then all lower
limits with their rows negated.  An infinite limit contributes nothing,
whatever its sign.  `recover` goes the other way and gathers the duals of the
pieces into one dual per row.
-/
import Multistage.LP.Program

namespace Multistage.LP

variable {α : Type}

/-- A row with a right-hand side. -/
structure Constraint (α : Type) where
  row : List α
  rhs : α
  deriving Repr, DecidableEq

/-- A program whose rows are equations and upper limits.  Columns without a
limit on a side have none there. -/
structure Split (α : Type) where
  costs : List α
  equations : List (Constraint α)
  inequalities : List (Constraint α)
  columns : List (Option α × Option α)
  deriving Repr, DecidableEq

variable [Scalar α]

/-! ## Sides of a row -/

/-- Limits closer than this count as one. -/
def equationTolerance : α := 1 / Scalar.ofNat 1000000000000

namespace Range

/-- The value that both limits agree on. -/
def equation? (r : Range α) : Option α :=
  match r.lower, r.upper with
  | .finite l, .finite u =>
    if Scalar.magnitude (l - u) < equationTolerance then some l else none
  | _, _ => none

/-- The upper limit of a row that is no equation. -/
def upperSide? (r : Range α) : Option α :=
  match r.equation? with
  | some _ => none
  | none => r.upper.value?

/-- The lower limit of a row that is no equation. -/
def lowerSide? (r : Range α) : Option α :=
  match r.equation? with
  | some _ => none
  | none => r.lower.value?

end Range

/-! ## Splitting -/

/-- The rows that have a side of a kind, with the limit on that side. -/
def sides (side? : Range α → Option α) (rows : List (List α)) (ranges : List (Range α)) :
    List (Constraint α) :=
  (rows.zip ranges).filterMap fun (row, r) => (side? r).map (Constraint.mk row)

/-- The same limit on the other side of the negated row. -/
def Constraint.negate (c : Constraint α) : Constraint α := ⟨c.row.map (- ·), -c.rhs⟩

/-- The program with one-sided rows. -/
def Program.split (p : Program α) : Split α where
  costs := p.costs
  equations := sides Range.equation? p.rows p.rowRanges
  inequalities :=
    sides Range.upperSide? p.rows p.rowRanges ++
      (sides Range.lowerSide? p.rows p.rowRanges).map Constraint.negate
  columns := p.columnRanges.map fun r => (r.lower.value?, r.upper.value?)

/-! ## Duals -/

/-- The number that belongs to a side, taken from the front of a list; zero
for a side that is not there. -/
def takeSide (side : Option α) (marginals : List α) : α × List α :=
  match side, marginals with
  | some _, m :: rest => (m, rest)
  | some _, [] => (0, [])
  | none, ms => (0, ms)

/-- One dual per row out of the marginals of equations, upper sides and
negated lower sides.  Raising a lower limit lowers the limit of the negated
row, hence the minus sign. -/
def recover : List (Range α) → List α → List α → List α → List α
  | [], _, _, _ => []
  | r :: rest, equations, uppers, lowers =>
    let (m, equations) := takeSide r.equation? equations
    let (u, uppers) := takeSide r.upperSide? uppers
    let (l, lowers) := takeSide r.lowerSide? lowers
    (match r.equation? with
      | some _ => m
      | none => u - l) :: recover rest equations uppers lowers

/-- One dual per row of a program out of the marginals of its split form. -/
def Program.recoverDuals (p : Program α) (equations inequalities : List α) : List α :=
  let upperCount := (sides Range.upperSide? p.rows p.rowRanges).length
  recover p.rowRanges equations (inequalities.take upperCount) (inequalities.drop upperCount)

end Multistage.LP
