/-
Multistage.LP.Elimination — square systems of equations.

A system is solved along a sequence of pivots, each of which ties a column to
a row.  A column that occurs in one row only, with coefficient one, is tied to
that row first.  Then come columns with a row in which nothing else is open,
or with a single open row left; these need no arithmetic beyond substitution.
What then remains is eliminated with the least fill-in.

The sequence of pivots decides how roundings add up, and it is a fixed
function of the system.  A column that two systems determine in the same way
therefore has the same value in both, to the last digit.
-/
import Multistage.LP.Split

namespace Multistage.LP

variable {α : Type} [Scalar α]

/-! ## Rows -/

namespace Constraint

/-- The coefficient of a column. -/
def coefficient (c : Constraint α) (j : Nat) : α := c.row.getD j 0

/-- Whether a column occurs. -/
def mentions (c : Constraint α) (j : Nat) : Bool := !(c.coefficient j == 0)

/-- The row less the multiple of another row that clears a column. -/
def clear (c pivot : Constraint α) (j : Nat) : Constraint α :=
  if c.mentions j then
    let factor := c.coefficient j / pivot.coefficient j
    let less (a b : α) : α := if b == 0 then a else a - factor * b
    ⟨(List.zipWith less c.row pivot.row).set j 0, c.rhs - factor * pivot.rhs⟩
  else c

/-- The row with a value put in for a column. -/
def putIn (c : Constraint α) (j : Nat) (x : α) : Constraint α :=
  if c.mentions j then ⟨c.row.set j 0, c.rhs - c.coefficient j * x⟩ else c

/-- The row with values put in for several columns at once: the products are
added up first. -/
def putAll (c : Constraint α) (values : List (Nat × α)) : Constraint α :=
  ⟨values.foldl (fun row (j, _) => row.set j 0) c.row,
   c.rhs - Scalar.total (values.map fun (j, x) => c.coefficient j * x)⟩

end Constraint

/-! ## The choice of pivots -/

/-- A column and the row that determines it. -/
structure Pivot where
  row : Nat
  column : Nat
  deriving Repr, DecidableEq

/-- How far the choice of pivots has come: the columns and rows that are still
open, and the pivots so far, the latest first. -/
structure Choice where
  columns : List Nat
  rows : List Nat
  pivots : List Pivot := []

/-- The choice with a further pivot. -/
def Choice.take (o : Choice) (p : Pivot) : Choice :=
  { columns := o.columns.erase p.column, rows := o.rows.erase p.row, pivots := p :: o.pivots }

/-- Equations. -/
abbrev System (α : Type) := List (Constraint α)

namespace System

/-- The coefficient of a column in a row. -/
def coefficient (s : System α) (i j : Nat) : α := ((s[i]?).map (·.coefficient j)).getD 0

/-- Those of some rows in which a column occurs. -/
def rowsWith (s : System α) (rows : List Nat) (j : Nat) : List Nat :=
  rows.filter fun i => !(s.coefficient i j == 0)

/-- How many of some columns occur in a row. -/
def countIn (s : System α) (columns : List Nat) (i : Nat) : Nat :=
  (columns.filter fun j => !(s.coefficient i j == 0)).length

/-- The row of a column that occurs nowhere else and has coefficient one
there, while that row is open. -/
def unitRow? (s : System α) (o : Choice) (j : Nat) : Option Nat :=
  match s.rowsWith (List.range s.length) j with
  | [i] => if s.coefficient i j == 1 && o.rows.contains i then some i else none
  | _ => none

/-- An open row in which no other open column occurs, or else the only open
row in which the column occurs. -/
def singleRow? (s : System α) (o : Choice) (j : Nat) : Option Nat :=
  let here := s.rowsWith o.rows j
  match here.find? fun i => s.countIn o.columns i == 1, here with
  | some i, _ => some i
  | none, [i] => some i
  | none, _ => none

/-- Goes through the open columns once and ties those that have a row. -/
def sweep (row? : Choice → Nat → Option Nat) (o : Choice) : Choice :=
  o.columns.foldl
    (fun o j =>
      match row? o j with
      | some i => o.take ⟨i, j⟩
      | none => o)
    o

/-- Sweeps until one of them ties no column. -/
def sweeps (row? : Choice → Nat → Option Nat) : Nat → Choice → Choice
  | 0, o => o
  | n + 1, o =>
    let next := sweep row? o
    if next.columns.length = o.columns.length then o else sweeps row? n next

/-! ## Elimination -/

/-- Clears the column of a pivot in some rows. -/
def eliminate (s : System α) (rows : List Nat) (p : Pivot) : System α :=
  match s[p.row]? with
  | some pivot => s.mapIdx fun i c => if rows.contains i then c.clear pivot p.column else c
  | none => s

/-- Clears the column of each pivot in the rows that no pivot has used up. -/
def eliminateAll (s : System α) (rows : List Nat) : List Pivot → System α
  | [] => s
  | p :: rest =>
    let rows := rows.erase p.row
    eliminateAll (s.eliminate rows p) rows rest

/-- How many coefficients a pivot may fill in. -/
def fillIn (s : System α) (o : Choice) (p : Pivot) : Nat :=
  ((s.rowsWith o.rows p.column).length - 1) * (s.countIn o.columns p.row - 1)

/-- The open pivots, later columns first. -/
def openPivots (s : System α) (o : Choice) : List Pivot :=
  o.columns.reverse.flatMap fun j => (s.rowsWith o.rows j).map fun i => ⟨i, j⟩

/-- The first of the pivots with the least fill-in. -/
def leastFillIn? (s : System α) (o : Choice) : Option Pivot :=
  (s.openPivots o).foldl
    (fun best p =>
      match best with
      | some b => if s.fillIn o p < s.fillIn o b then some p else some b
      | none => some p)
    none

/-- Chooses a number of further pivots by their fill-in and eliminates with
them. -/
def eliminateRest : Nat → System α → Choice → System α × Choice
  | 0, s, o => (s, o)
  | n + 1, s, o =>
    match s.leastFillIn? o with
    | some p =>
      let o := o.take p
      eliminateRest n (s.eliminate o.rows p) o
    | none => (s, o)

/-! ## Substitution -/

/-- Right-hand sides closer to zero than this count as zero. -/
def negligible : α := 1 / Scalar.ofNat 100000000000000

/-- The value that a pivot gives its column once all later columns have been
put in. -/
def pivotValue (s : System α) (p : Pivot) : α :=
  let rhs := ((s[p.row]?).map Constraint.rhs).getD 0
  if Scalar.magnitude rhs ≤ negligible then 0 else rhs / s.coefficient p.row p.column

/-- The values of the columns of some pivots, the latest first. -/
def substitute (s : System α) : List Pivot → List (Nat × α)
  | [] => []
  | p :: rest =>
    let x := s.pivotValue p
    (p.column, x) :: substitute (s.map fun c => c.putIn p.column x) rest

/-- The values of columns, of which there are as many as equations.  The
columns are tried as pivots in the given order.  A column that the equations
do not determine has no value. -/
def solve (s : System α) (columns : List Nat) : List (Nat × α) :=
  let rows := List.range s.length
  let o := sweeps s.singleRow? columns.length (sweep s.unitRow? { columns, rows })
  let (s, o) := eliminateRest o.columns.length (s.eliminateAll rows o.pivots.reverse) o
  s.substitute o.pivots

end System

end Multistage.LP
