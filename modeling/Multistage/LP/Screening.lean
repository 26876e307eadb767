/-
Multistage.LP.Screening — numbers that a solver does not take at face value.

An entry of a row that is close to zero counts as zero.  A limit that is far
out is none, as long as it lies on its own side: a lower limit far above zero
and an upper limit far below it admit no point, and neither does a row with a
huge entry.  Limits of a column that cross by a hair are put on one number.  A
cost that is far out counts as infinite: it settles at which limit its column
stands, and enters the objective afterwards.
-/
import Multistage.LP.Solve

namespace Multistage.LP.Screening

/-! ## Limits of size -/

/-- Entries up to this size count as zero. -/
def smallEntry : Float := 1e-9

/-- Entries from this size on are refused. -/
def hugeEntry : Float := 1e15

/-- Limits and costs from this size on count as infinite. -/
def farOut : Float := 1e20

/-- Limits may be missed, and crossed, by less than this. -/
def tolerance : Float := 1e-7

/-! ## Rows and columns -/

/-- The limits of a column, either of which may be missing. -/
abbrev Limits := Option Float × Option Float

/-- The rows of a program, equations first. -/
def rows (s : Split Float) : List (Constraint Float) := s.equations ++ s.inequalities

/-- Whether costs and rows have finite numbers only. -/
def isFinite (s : Split Float) : Bool :=
  s.costs.all Float.isFinite && (rows s).all fun c => c.row.all Float.isFinite && c.rhs.isFinite

/-- Whether no entry is huge and no limit is far out on the wrong side. -/
def isAdmissible (s : Split Float) : Bool :=
  (rows s).all (fun c => c.row.all fun a => a.abs < hugeEntry) &&
    s.equations.all (fun c => c.rhs.abs < farOut) &&
    s.inequalities.all (fun c => -farOut < c.rhs) &&
    s.columns.all fun (l, u) => l.all (fun x => !(farOut ≤ x)) && u.all fun x => !(x ≤ -farOut)

/-- A row without the entries that count as zero. -/
def withoutSmall (c : Constraint Float) : Constraint Float :=
  { c with row := c.row.map fun a => if a.abs ≤ smallEntry then 0.0 else a }

/-- The limits that are numbers and not far out. -/
def nearLimits (limits : Limits) : Limits :=
  (limits.1.filter fun x => -farOut < x, limits.2.filter fun x => x < farOut)

/-- Whether a number is whole. -/
def isWhole (x : Float) : Bool := x == (x + 0.5).floor

/-- Limits that cross by a hair, put on one number: on a whole one if there is
one, else in the middle. -/
def uncross (limits : Limits) : Limits :=
  match limits with
  | (some l, some u) =>
    if u < l ∧ -tolerance < u - l then
      let x := if isWhole l then l else if isWhole u then u else 0.5 * (l + u)
      (some x, some x)
    else limits
  | _ => limits

/-- Whether a lower limit lies above the upper one. -/
def isCrossed (limits : Limits) : Bool :=
  match limits with
  | (some l, some u) => u < l
  | _ => false

/-- The program with its small entries and its limits put in order. -/
def screened (s : Split Float) : Split Float :=
  { s with
    equations := s.equations.map withoutSmall
    inequalities := s.inequalities.map withoutSmall
    columns := s.columns.map fun limits => uncross (nearLimits limits) }

/-! ## Infinite costs -/

/-- Whether a cost counts as infinite. -/
def isFarOut (cost : Float) : Bool := farOut ≤ cost.abs

/-- The limits of a column with an infinite cost: the one that the cost asks
for, on both sides.  There are none without that limit. -/
def pin? (cost : Float) (limits : Limits) : Option Limits :=
  if isFarOut cost then
    (if 0.0 < cost then limits.1 else limits.2).map fun x => (some x, some x)
  else some limits

/-- The program in which columns with infinite costs stand still and cost
nothing. -/
def pinned? (s : Split Float) : Option (Split Float) := do
  return { s with
    costs := s.costs.map fun c => if isFarOut c then 0.0 else c
    columns := ← (s.costs.zip s.columns).mapM fun (c, limits) => pin? c limits }

/-- The part of infinite costs in the objective: a column at zero has none. -/
def addInfinite (value : Float) (costs point : List Float) : Float :=
  (costs.zip point).foldl
    (fun value (c, x) =>
      if isFarOut c && !(x == 0.0) then
        value + x * (if 0.0 < c then Binary64.infinity else -Binary64.infinity)
      else value)
    value

/-- The outcome for the costs of a program, out of that for its pinned form.
Where columns stood still for their costs, that no point was found says
nothing. -/
def unpin (costs : List Float) : Outcome (Optimum Float) → Outcome (Optimum Float)
  | .optimal o =>
    let value := addInfinite o.value costs o.point
    if value.isNaN then .failed else .optimal { o with value }
  | .infeasible => if costs.any isFarOut then .failed else .infeasible
  | outcome => outcome

/-! ## Screening -/

/-- A solver of screened programs made one of all programs.  A program has at
least one column, and its costs and rows are finite. -/
def screen (solve : Settings → Split Float → Outcome (Optimum Float)) : Solver Float :=
  fun settings s => do
    if s.costs.isEmpty then throw (.badValue "no columns")
    if !isFinite s then throw (.badValue "costs and rows have to be finite")
    settings.checkLimit
    if !isAdmissible s then return .infeasible
    let s := screened s
    if s.columns.any isCrossed then return .infeasible
    match pinned? s with
    | none => return .failed
    | some pinned => return unpin s.costs (solve settings pinned)

end Multistage.LP.Screening
