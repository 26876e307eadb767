/-
Multistage.LP.Unconstrained — programs whose rows mention no column.

Each column goes, on its own, to the limit that its cost asks for.  A cost
within the tolerance of zero asks for nothing; its column stands at its lower
limit, or at the upper one if it has no lower one.
-/
import Multistage.LP.Screening

namespace Multistage.LP.Unconstrained

open Screening (Limits tolerance)

/-- Whether no row mentions a column. -/
def applies (s : Split Float) : Bool :=
  (Screening.rows s).all fun c => c.row.all (· == 0.0)

/-- Whether rows without entries hold. -/
def rowsHold (s : Split Float) : Bool :=
  s.equations.all (fun c => c.rhs.abs ≤ tolerance) &&
    s.inequalities.all fun c => -tolerance ≤ c.rhs

/-- Where a column stands. -/
def standing (cost : Float) (limits : Limits) : Float :=
  match limits with
  | (none, none) => 0.0
  | (some l, none) => l
  | (none, some u) => u
  | (some l, some u) => if cost ≤ -tolerance then u else l

/-- Whether the cost of a column drives it without end. -/
def isDriven (cost : Float) (limits : Limits) : Bool :=
  (limits.1.isNone && tolerance < cost) || (limits.2.isNone && cost < -tolerance)

/-- Solves a program whose rows mention no column. -/
def solve (s : Split Float) : Outcome (Optimum Float) :=
  let columns := s.costs.zip s.columns
  if !rowsHold s then .infeasible
  else if columns.any fun (c, limits) => isDriven c limits then .unbounded
  else
    let point := columns.map fun (c, limits) => standing c limits
    .optimal
      { point
        value := Scalar.total (List.zipWith (· * ·) point s.costs)
        equationMarginals := s.equations.map fun _ => 0.0
        inequalityMarginals := s.inequalities.map fun _ => 0.0
        lowerMarginals := s.costs.map fun c => if 0.0 < c then c else 0.0
        upperMarginals := s.costs.map fun c => if c < 0.0 then c else 0.0 }

end Multistage.LP.Unconstrained
