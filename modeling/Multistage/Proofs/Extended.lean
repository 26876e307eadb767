/-
Multistage.Proofs.Extended — exact arithmetic with infinities.

Doubles have two infinities and an element that is no number.  `Extended K`
adds them to an ordered field, and computes as doubles do, but without
rounding and with one zero.  Statements about infinite limits are made in this
scalar: an ordered field alone has no infinite element that `Scalar.limit`
could tell from a number.
-/
import Multistage.Proofs.Exact

namespace Multistage

/-- The numbers of a field, two infinities, and what is no number. -/
inductive Extended (K : Type) where
  | real (a : K)
  | negInf
  | posInf
  | nan
  deriving DecidableEq

namespace Extended

variable {K : Type} [Field K] [LinearOrder K]

/-! ## Operations -/

/-- The element of the other sign. -/
def neg : Extended K → Extended K
  | real a => real (-a)
  | negInf => posInf
  | posInf => negInf
  | nan => nan

/-- Sums; infinities of different signs have none. -/
def add : Extended K → Extended K → Extended K
  | real a, real b => real (a + b)
  | real _, e => e
  | e, real _ => e
  | negInf, negInf => negInf
  | posInf, posInf => posInf
  | _, _ => nan

/-- What is not a number of the field, times a number. -/
def scaled (e : Extended K) (a : K) : Extended K :=
  if 0 < a then e else if a < 0 then e.neg else nan

/-- Products; an infinity and zero have none. -/
def mul : Extended K → Extended K → Extended K
  | real a, real b => real (a * b)
  | real a, e => e.scaled a
  | e, real a => e.scaled a
  | negInf, negInf => posInf
  | posInf, posInf => posInf
  | negInf, posInf => negInf
  | posInf, negInf => negInf
  | _, _ => nan

/-- Quotients; those by zero are infinite, but zero by zero is no number. -/
def div : Extended K → Extended K → Extended K
  | real a, real b => if b = 0 then posInf.scaled a else real (a / b)
  | real _, negInf => real 0
  | real _, posInf => real 0
  | e, real b => if b < 0 then e.neg else e
  | _, _ => nan

/-- The strict order, in which `nan` has no place. -/
def lt : Extended K → Extended K → Bool
  | real a, real b => decide (a < b)
  | negInf, real _ => true
  | negInf, posInf => true
  | real _, posInf => true
  | _, _ => false

/-- Equality, which fails of `nan` and itself. -/
def same : Extended K → Extended K → Bool
  | nan, nan => false
  | a, b => decide (a = b)

instance instScalar : Scalar (Extended K) where
  zero := real 0
  one := real 1
  neg := neg
  add := add
  sub a b := add a b.neg
  mul := mul
  div := div
  lt a b := lt a b = true
  le a b := lt a b = true ∨ same a b = true
  beq := same
  decideLT a b := inferInstanceAs (Decidable (lt a b = true))
  decideLE a b := inferInstanceAs (Decidable (lt a b = true ∨ same a b = true))
  ofNat n := real n
  limit
    | negInf => .negInf
    | posInf => .posInf
    | e => .finite e

/-! ## Numbers

On the numbers of the field everything is computed as in the field. -/

theorem zero_eq_real : (0 : Extended K) = real 0 := rfl

@[simp] theorem real_neg (a : K) : -real a = real (-a) := rfl

@[simp] theorem real_sub (a b : K) : real a - real b = real (a - b) := by
  rw [sub_eq_add_neg]
  rfl

theorem real_div {b : K} (hb : b ≠ 0) (a : K) : real a / real b = real (a / b) := if_neg hb

@[simp] theorem real_lt_real {a b : K} : real a < real b ↔ a < b := decide_eq_true_iff

@[simp] theorem real_le_real {a b : K} : real a ≤ real b ↔ a ≤ b := by
  show lt (real a) (real b) = true ∨ same (real a) (real b) = true ↔ a ≤ b
  simp [lt, same, le_iff_lt_or_eq]

@[simp] theorem magnitude_real (a : K) :
    Scalar.magnitude (real a) = real (Scalar.magnitude a) := by
  unfold Scalar.magnitude
  rw [zero_eq_real, real_neg, apply_ite real]
  exact if_congr real_lt_real rfl rfl

/-! ## Sums of products -/

theorem total_real (as : List K) : Scalar.total (as.map real) = real (Scalar.total as) := by
  have hfold : ∀ a : K, (as.map real).foldl (· + ·) (real a) = real (as.foldl (· + ·) a) := by
    induction as with
    | nil => exact fun a => rfl
    | cons b as ih => exact fun a => ih (a + b)
  exact hfold 0

theorem dot_real (as bs : List K) :
    Scalar.dot (as.map real) (bs.map real) = real (Scalar.dot as bs) := by
  have hproducts : List.zipWith (· * ·) (as.map real) (bs.map real)
      = (List.zipWith (· * ·) as bs).map real := by
    rw [List.zipWith_map, List.map_zipWith]
    rfl
  have hsum : Scalar.total (List.zipWith (· * ·) (as.map real) (bs.map real))
      = real (Scalar.total (List.zipWith (· * ·) as bs)) := by
    rw [hproducts, total_real]
  -- a single product stands alone
  match as, bs with
  | [_], [_] => rfl
  | [], _ => exact hsum
  | [_], [] => exact hsum
  | [_], _ :: _ :: _ => exact hsum
  | _ :: _ :: _, _ => exact hsum

end Extended

end Multistage
