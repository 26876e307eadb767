/-
Multistage.LP.Program — linear programs with two-sided rows.

A program minimizes `costs · x` over the points at which every row's value and
every column stays within its range.  Callers state the rows in one of four
forms; `RowForm.ranges` brings all of them to ranges.
-/
import Multistage.Failure
import Multistage.Scalar

namespace Multistage.LP

/-- A lower and an upper limit. -/
structure Range (α : Type) where
  lower : Limit α
  upper : Limit α
  deriving Repr, DecidableEq

/-- A linear program in minimization form: one row and one range per
constraint, one range per column. -/
structure Program (α : Type) where
  costs : List α
  rows : List (List α)
  rowRanges : List (Range α)
  columnRanges : List (Range α)
  deriving Repr

/-! ## Rows by sense -/

/-- How the value of a row relates to its right-hand side. -/
inductive RowSense where
  | atMost
  | atLeast
  | equal
  deriving Repr, DecidableEq

namespace RowSense

/-- The usual sign of a sense. -/
def sign : RowSense → Value
  | atMost => "<="
  | atLeast => ">="
  | equal => "="

/-- Reads the sign of a row. -/
def parse? (sign : Value) : Option RowSense :=
  match sign with
  | .string "=" | .string "==" => some equal
  | .string "<=" | .string "<" => some atMost
  | .string ">=" | .string ">" => some atLeast
  | _ => none

variable {α : Type} [Scalar α]

/-- The range that a sense and a right-hand side leave to a row. -/
def range (s : RowSense) (rhs : α) : Range α :=
  match s with
  | atMost => ⟨.negInf, Scalar.limit rhs⟩
  | atLeast => ⟨Scalar.limit rhs, .posInf⟩
  | equal => ⟨Scalar.limit rhs, Scalar.limit rhs⟩

/-- The range that a sign and a right-hand side leave to a row. -/
def rangeOfSign (sign : Value) (rhs : α) : Except Failure (Range α) :=
  match parse? sign with
  | some s => .ok (s.range rhs)
  | none => .error (.misconfigured (.unknownRowSense sign))

end RowSense

/-! ## Forms of rows -/

/-- The ways to limit the rows of a program: a sign and a right-hand side per
row, limits on either side, one value per row, or nothing, which stands for
the value zero. -/
inductive RowForm (α : Type) where
  | signed (signs : List Value) (rhs : List α)
  | ranged (lower upper : Option (List (Limit α)))
  | equal (rhs : List α)
  | zero

namespace RowForm

variable {α : Type} [Scalar α]

/-- Ranges out of lower and upper limits, which have to be as many as there
are rows. -/
def pairLimits (rows : Nat) (lower upper : List (Limit α)) :
    Except Failure (List (Range α)) :=
  if lower.length = rows ∧ upper.length = rows then .ok (List.zipWith Range.mk lower upper)
  else .error (.mismatched (.rowBounds lower.length upper.length rows))

/-- The range of every row. -/
def ranges (rows : Nat) : RowForm α → Except Failure (List (Range α))
  | signed signs rhs =>
    if signs.length = rows ∧ rhs.length = rows then
      (signs.zip rhs).mapM fun (sign, b) => RowSense.rangeOfSign sign b
    else .error (.mismatched (.sensedRows rows signs.length rhs.length))
  | ranged lower upper =>
    pairLimits rows (lower.getD (List.replicate rows .negInf))
      (upper.getD (List.replicate rows .posInf))
  | equal rhs => pairLimits rows (rhs.map Scalar.limit) (rhs.map Scalar.limit)
  | zero => pairLimits rows (List.replicate rows (.finite 0)) (List.replicate rows (.finite 0))

end RowForm

/-! ## Programs -/

variable {α : Type}

/-- Column ranges out of lower and upper limits, one of each per column. -/
def columnRanges (columns : Nat) (lower upper : List (Limit α)) :
    Except Failure (List (Range α)) :=
  if lower.length = columns ∧ upper.length = columns then
    .ok (List.zipWith Range.mk lower upper)
  else .error (.mismatched (.columnBounds lower.length upper.length columns))

/-- A program from its parts, as a stage problem assembles them. -/
def Program.ofSigned [Scalar α] (costs : List α) (rows : List (List α)) (signs : List Value)
    (rhs : List α) (columns : List (Range α)) : Except Failure (Program α) := do
  return ⟨costs, rows, ← (RowForm.signed signs rhs).ranges rows.length, columns⟩

end Multistage.LP
