/-
Multistage.LP.Reading — linear programs out of values.

The parts of a program arrive as nested lists.  They are read in a fixed
order, and each is checked as soon as what it is compared with is known.  The
limits of the rows may stand in a column as well as in a row; a column beside
a row would compare every limit with every other one, and is refused unless
none of them limits anything.
-/
import Multistage.LP.Split
import Multistage.Tensor

namespace Multistage.LP

/-- The parts of a program as a caller states them; parts may be missing. -/
structure Statement where
  costs : Value
  matrix : Value := .null
  rhs : Value := .null
  lower : Value := .null
  upper : Value := .null
  rowLower : Value := .null
  rowUpper : Value := .null
  signs : Value := .null

namespace Statement

/-- The parts by their names in a record. -/
def ofRecord (v : Value) : Statement where
  costs := v.field "c"
  matrix := v.field "A"
  rhs := v.field "b"
  lower := v.field "lb"
  upper := v.field "ub"
  rowLower := v.field "constraint_l"
  rowUpper := v.field "constraint_u"
  signs := v.field "constraint_senses"

/-- Limits as numbers, or the same limit for every column. -/
def readLimits (given : Value) (columns : Nat) (absent : Limit Float) :
    Except Failure (List (Limit Float)) :=
  match given with
  | .null => .ok (List.replicate columns absent)
  | v => return (← Tensor.flatten v).map Scalar.limit

/-- The rows of a matrix, which has as many columns as there are costs.  A
vector is one row. -/
def readRows (given : Value) (columns : Nat) : Except Failure (List (List Float)) :=
  match given with
  | .null => .ok []
  | v => do
    let t ← Tensor.ofValue v
    match t.shape with
    | [] => throw .outOfRange
    | [n] =>
      if n ≠ columns then throw (.mismatched (.matrixColumns n columns))
      return [t.entries]
    | [rows, n] =>
      if 0 < rows ∧ n ≠ columns then throw (.mismatched (.matrixColumns n columns))
      return Tensor.chunks n rows t.entries
    | rows :: n :: _ =>
      if 0 < rows ∧ n ≠ columns then throw (.mismatched (.matrixColumns n columns))
      throw (.badValue "rows have to be vectors")

/-! ## Limits of rows -/

/-- The limits on one side of the rows, or the same limit for every row. -/
def readSide (given : Value) (rows : Nat) (absent : Float) : Except Failure (Tensor Float) :=
  match given with
  | .null => .ok (Tensor.vector (List.replicate rows absent))
  | v => Tensor.ofValue v

/-- The pairs of a lower and an upper limit that face each other when the
shapes are spread over one another. -/
def facing (lower upper : Tensor Float) : Except Failure (List (Range Float)) :=
  match Tensor.zipSpread lower upper with
  | some pairs => .ok (pairs.map fun (l, u) => ⟨Scalar.limit l, Scalar.limit u⟩)
  | none => .error (.badValue "operands could not be broadcast together")

/-- The limits of the rows out of the two sides, each of which has one part per
row.  A pair of limits that limits something stands for a row by its place, so
it has to be one of the first pairs; and what is picked from the sides has to
be one number per row. -/
def pairSides (rows : Nat) (lower upper : Tensor Float) : Except Failure (RowForm Float) := do
  match lower.leading?, upper.leading? with
  | some l, some u =>
    if ¬(l = rows ∧ u = rows) then throw (.mismatched (.rowBounds l u rows))
  | _, _ => throw .wrongKind
  let given : RowForm Float :=
    .ranged (some (lower.entries.map Scalar.limit)) (some (upper.entries.map Scalar.limit))
  if lower.shape = upper.shape ∧ lower.entries.length = rows then return given
  let pairs ← facing lower upper
  let limits (r : Range Float) : Bool :=
    r.equation?.isSome || r.lowerSide?.isSome || r.upperSide?.isSome
  if (pairs.drop rows).any limits then throw .outOfRange
  if !pairs.any limits then return .ranged none none
  match pairs with
  | [r] => if r.equation?.isSome then return given
  | _ => pure ()
  throw (.badValue "limits of rows have to be vectors")

/-- The form in which the rows are limited.  Signs go before limits, limits
before plain right-hand sides. -/
def readForm (s : Statement) (rows : Nat) : Except Failure (RowForm Float) :=
  match s.signs, s.rowLower, s.rowUpper with
  | .null, .null, .null =>
    match s.rhs with
    | .null => .ok .zero
    | rhs => return .equal (← Tensor.flatten rhs)
  | .null, lower, upper => do
    let l ← readSide lower rows (-Binary64.infinity)
    pairSides rows l (← readSide upper rows Binary64.infinity)
  | signs, _, _ =>
    match s.rhs with
    | .null => .error (.misconfigured .sensesWithoutRhs)
    | rhs => do
      let b ← Tensor.flatten rhs
      return .signed (← signs.elements) b

/-- The program that a statement describes. -/
def program (s : Statement) : Except Failure (Program Float) := do
  let costs ← Tensor.flatten s.costs
  let columns := costs.length
  let lower ← readLimits s.lower columns (.finite 0.0)
  let upper ← readLimits s.upper columns .posInf
  let ranges ← columnRanges columns lower upper
  let rows ← readRows s.matrix columns
  let form ← s.readForm rows.length
  return ⟨costs, rows, ← form.ranges rows.length, ranges⟩

end Statement

end Multistage.LP
