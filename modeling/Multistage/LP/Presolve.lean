/-
Multistage.LP.Presolve — programs that are solved before the first step.

Some rows and columns can be taken out of a program by looking at their limits
alone: a row that cannot be violated, a row with one entry, a column that can
only stand in one place, a column that every direction of improvement drives
to the same limit, and a column that a single row determines.  A program whose
rows all go this way, or that turns out to contradict itself, needs no step of
the simplex method.
-/
import Multistage.LP.Split

namespace Multistage.LP.Presolve

-- Powers are the plain ones, also where a library of algebra offers its own.
attribute [local instance (high)] Rat.instPowNat

/-! ## Spans -/

/-- What lies between two limits, either of which may be missing. -/
abbrev Span := Option Rat × Option Rat

namespace Span

/-- A single number. -/
def point (x : Rat) : Span := (some x, some x)

/-- The multiples of the numbers of a span. -/
def scale (a : Rat) (s : Span) : Span :=
  if a = 0 then point 0
  else if 0 < a then (s.1.map (a * ·), s.2.map (a * ·))
  else (s.2.map (a * ·), s.1.map (a * ·))

/-- The sums of the numbers of two spans. -/
def plus (s t : Span) : Span :=
  let sum (a b : Option Rat) : Option Rat := a.bind fun x => b.map (x + ·)
  (sum s.1 t.1, sum s.2 t.2)

/-- The sums of the numbers of several spans. -/
def total (spans : List Span) : Span := spans.foldl plus (point 0)

/-- The differences of the numbers of two spans. -/
def minus (s t : Span) : Span := s.plus (t.scale (-1))

/-- What two spans have in common. -/
def meet (s t : Span) : Span :=
  let tighter (pick : Rat → Rat → Rat) (a b : Option Rat) : Option Rat :=
    match a, b with
    | some x, some y => some (pick x y)
    | some x, none => some x
    | none, b => b
  (tighter (fun x y => if x < y then y else x) s.1 t.1,
    tighter (fun x y => if y < x then y else x) s.2 t.2)

/-- Whether the limits are the wrong way round. -/
def isCrossed : Span → Bool
  | (some l, some u) => decide (u < l)
  | _ => false

/-- Whether a span lies within another one. -/
def isWithin (s t : Span) : Bool := s.meet t == s

/-- The number of a span with a single one. -/
def point? : Span → Option Rat
  | (some l, some u) => if l = u then some l else none
  | _ => none

end Span

/-! ## Forms -/

/-- A row and the limits of its value. -/
structure Row where
  entries : List Rat
  span : Span

/-- A column: its cost and its limits. -/
structure Column where
  cost : Rat
  span : Span

/-- A program from which rows and columns are taken out. -/
structure Form where
  columns : List Column
  rows : List Row

/-- The limit that the right-hand side of an inequality sets; one that is far
out sets none. -/
def upperLimit? (rhs : Rat) : Option Rat := if rhs < 10 ^ (20 : Nat) then some rhs else none

namespace Form

/-- The form of a program with one-sided rows. -/
def ofSplit (s : Split Rat) : Form where
  columns := List.zipWith Column.mk s.costs s.columns
  rows := (s.equations.map fun c => ⟨c.row, Span.point c.rhs⟩) ++
    s.inequalities.map fun c => ⟨c.row, (none, upperLimit? c.rhs)⟩

/-- The spans of the products in a row. -/
def products (f : Form) (r : Row) : List Span :=
  List.zipWith (fun a c => c.span.scale a) r.entries f.columns

/-- The entries of a column. -/
def entriesOf (f : Form) (j : Nat) : List Rat := f.rows.map fun r => r.entries.getD j 0

/-- The form without a row. -/
def dropRow (f : Form) (i : Nat) : Form := { f with rows := f.rows.eraseIdx i }

/-- The form with a column kept at a number. -/
def fix (f : Form) (j : Nat) (x : Rat) : Form where
  columns := f.columns.eraseIdx j
  rows := f.rows.map fun r =>
    ⟨r.entries.eraseIdx j, r.span.minus (Span.point (r.entries.getD j 0 * x))⟩

/-- The form with a column expressed through a row that holds at a number.
The limits of the column are not looked at. -/
def express (f : Form) (i j : Nat) (x : Rat) : Form :=
  match f.rows[i]? with
  | none => f
  | some r =>
    let a := r.entries.getD j 0
    let reduced (k : Rat) (entries : List Rat) : List Rat :=
      List.zipWith (fun b e => b - k / a * e) entries r.entries
    let cost := ((f.columns[j]?).map Column.cost).getD 0
    let columns := List.zipWith (fun (c : Column) e => { c with cost := c.cost - cost / a * e })
      f.columns r.entries
    let rows := (f.rows.eraseIdx i).map fun (s : Row) =>
      let k := s.entries.getD j 0
      ⟨reduced k s.entries, s.span.minus (Span.point (k / a * x))⟩
    Form.fix { columns, rows } j 0

/-- Whether the limits of a column or of a row cannot be met. -/
def isContradicted (f : Form) : Bool :=
  f.columns.any (fun c => c.span.isCrossed) ||
    f.rows.any fun r => (r.span.meet (Span.total (f.products r))).isCrossed

/-! ## Rows -/

/-- The positions of entries that are not zero. -/
def support (xs : List Rat) : List Nat := (List.range xs.length).filter fun k => xs.getD k 0 ≠ 0

/-- Takes out a row that no choice within the limits of the columns violates,
or turns a row with one entry into limits of its column.  An equation in two
columns expresses one of them through the other, which takes over its
limits. -/
def reduceRow (f : Form) (i : Nat) : Option Form := do
  let r ← f.rows[i]?
  if (Span.total (f.products r)).isWithin r.span then return f.dropRow i
  match support r.entries with
  | [j] =>
    let column ← f.columns[j]?
    let span := column.span.meet (r.span.scale (r.entries.getD j 0)⁻¹)
    return { f with columns := f.columns.set j { column with span } }.dropRow i
  | [j, k] =>
    let x ← r.span.point?
    let (first, second) := (← f.columns[j]?, ← f.columns[k]?)
    let implied := ((Span.point x).minus (first.span.scale (r.entries.getD j 0))).scale
      (r.entries.getD k 0)⁻¹
    let columns := f.columns.set k { second with span := second.span.meet implied }
    return { f with columns }.express i j x
  | _ => none

/-! ## Columns -/

/-- Where the dual of a row lies: it pushes away from the limits that the row
has. -/
def dualSpan (r : Row) : Span :=
  match r.span with
  | (none, none) => Span.point 0
  | (some _, none) => (some 0, none)
  | (none, some _) => (none, some 0)
  | (some _, some _) => (none, none)

/-- The duals narrowed by a column without a limit on some side: nothing may
be gained by moving it that way. -/
def narrowDuals (duals : List Span) (c : Column) (entries : List Rat) : List Span :=
  let reach : Span :=
    (if c.span.1.isSome then none else some c.cost, if c.span.2.isSome then none else some c.cost)
  let terms := List.zipWith Span.scale entries duals
  (duals.zip entries).mapIdx fun i (y, a) =>
    if a = 0 then y else y.meet ((reach.minus (Span.total (terms.eraseIdx i))).scale a⁻¹)

/-- Where the reduced cost of a column lies, by the duals that the other
columns allow. -/
def reducedCost (f : Form) (j : Nat) (c : Column) : Span :=
  let others := (f.columns.mapIdx fun k c => (k, c)).filter fun (k, _) => k ≠ j
  let duals := others.foldl (fun duals (k, c) => narrowDuals duals c (f.entriesOf k))
    (f.rows.map dualSpan)
  (Span.point c.cost).minus (Span.total (List.zipWith Span.scale (f.entriesOf j) duals))

/-- Where a column has to stand: the only number within its limits, or the
limit to which its reduced cost drives it. -/
def standing? (f : Form) (j : Nat) : Option Rat := do
  let c ← f.columns[j]?
  match c.span.point?, f.reducedCost j c with
  | some x, _ => return x
  | none, (some least, some most) =>
    if 0 ≤ least then c.span.1 else if most ≤ 0 then c.span.2 else none
  | none, (some least, none) => if 0 ≤ least then c.span.1 else none
  | none, (none, some most) => if most ≤ 0 then c.span.2 else none
  | none, (none, none) => none

/-- Takes out a column in a single row whose limits that row implies, together
with the row: the row holds at the limit that the cost of the column asks
for, and determines the column. -/
def resolve (f : Form) (j : Nat) : Option Form := do
  let c ← f.columns[j]?
  match support (f.entriesOf j) with
  | [i] =>
    let r ← f.rows[i]?
    let a := r.entries.getD j 0
    let rest := Span.total ((f.products r).eraseIdx j)
    let dual := c.cost / a
    let side ← if 0 < dual then r.span.1 else if dual < 0 then r.span.2
      else r.span.1.orElse fun _ => r.span.2
    if ((Span.minus (Span.point side) rest).scale a⁻¹).isWithin c.span then
      return f.express i j side
    else none
  | _ => none

/-- Takes out a column that has a place to stand, or that a row resolves. -/
def reduceColumn (f : Form) (j : Nat) : Option Form :=
  match f.standing? j with
  | some x => some (f.fix j x)
  | none => f.resolve j

/-! ## Reduction -/

/-- Takes out rows and columns as long as there is one to take. -/
def reduce : Nat → Form → Form
  | 0, f => f
  | fuel + 1, f =>
    match (List.range f.rows.length).findSome? f.reduceRow with
    | some f => reduce fuel f
    | none =>
      match (List.range f.columns.length).findSome? f.reduceColumn with
      | some f => reduce fuel f
      | none => f

end Form

/-- The limits of a column that shares no row with another one, the rows in
which it stands alone included. -/
def loneSpan? (s : Split Rat) (j : Nat) : Option Span := do
  let span ← s.columns[j]?
  let rows := (Form.ofSplit s).rows.filter fun r => r.entries.getD j 0 ≠ 0
  if rows.all fun r => Form.support r.entries == [j] then
    return rows.foldl (fun span r => span.meet (r.span.scale (r.entries.getD j 0)⁻¹)) span
  else none

/-- Costs up to this size count as zero where columns share rows. -/
def slightCost : Rat := mkRat 1 10000000

/-- The program in which a column of slight cost that shares no row with
another one stands at the limit that its cost asks for. -/
def settleLone (s : Split Rat) : Split Rat :=
  { s with
    columns := (s.costs.zip s.columns).mapIdx fun j (cost, limits) =>
      let target : Option Rat := do
        let span ← loneSpan? s j
        if span.isCrossed || cost = 0 || slightCost < cost.abs then none
        else if 0 < cost then span.1 else span.2
      match target with
      | some x => Span.point x
      | none => limits }

/-- Whether a program needs no step. -/
def vanishes (s : Split Rat) : Bool :=
  let f := Form.ofSplit s
  let f := f.reduce (f.rows.length + f.columns.length)
  f.rows.isEmpty || f.isContradicted

end Multistage.LP.Presolve
