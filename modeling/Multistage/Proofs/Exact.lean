/-
Multistage.Proofs.Exact — arithmetic in an ordered field, and what is better
in a sense.

The library computes in any `Scalar`.  An ordered field is one of them, and
there every operation means what it says: nothing is rounded, nothing is
infinite, and every element equals itself.  Statements about exact arithmetic
are made in this instance.

Minimization and maximization mirror each other.  `Sense.below` is the order in
which a bound lies below what it bounds: `≤` for costs, `≥` for profits.
`Sense.sign` turns profits into costs, so `below` is `≤` after a
multiplication, and arguments are made once for both senses.
-/
import Multistage.Cut.Basic
import Multistage.Sense
import Mathlib.Algebra.Order.Field.Basic
import Mathlib.Algebra.Order.BigOperators.Group.List
import Mathlib.Algebra.BigOperators.Ring.List
import Mathlib.Data.List.GetD
import Mathlib.Order.Bounds.Basic
import Mathlib.Tactic.Linarith
import Mathlib.Tactic.Ring

namespace Multistage

theorem map_getD_range {K : Type} [Zero K] (a : List K) :
    (List.range a.length).map (a.getD · 0) = a := by
  refine List.ext_getElem (by simp) fun i h₁ h₂ => ?_
  simp [List.getElem?_eq_getElem h₂]

/-! ## Ordered fields as scalars -/

-- An ordered field has its own operations; those that come with a scalar are
-- looked for last, so that both are written in one way.
attribute [instance (low)] Scalar.toZero Scalar.toOne Scalar.toNeg Scalar.toAdd Scalar.toSub
  Scalar.toMul Scalar.toDiv Scalar.toLT Scalar.toLE Scalar.toBEq Statistical.toScalar
  Scalar.instDecidableLT Scalar.instDecidableLE

/-- The exact arithmetic of an ordered field. -/
instance Scalar.exact {K : Type} [Field K] [LinearOrder K] : Scalar K where
  decideLT := inferInstance
  decideLE := inferInstance
  ofNat n := n
  limit a := .finite a

/-- What exact statistics needs beside an ordered field: square roots and the
quantile of Student's distribution, as good as there are any. -/
class Quantiles (K : Type) where
  sqrt : K → K
  studentQuantile : K → Nat → K

instance Statistical.exact {K : Type} [Field K] [LinearOrder K] [Quantiles K] : Statistical K :=
  { Scalar.exact with
    sqrt := Quantiles.sqrt
    studentQuantile := Quantiles.studentQuantile }

namespace Scalar

variable {K : Type} [Field K] [LinearOrder K]

@[simp] theorem limit_exact (a : K) : Scalar.limit a = .finite a := rfl

@[simp] theorem isNaN_exact (a : K) : isNaN a = false := by
  simp [isNaN]

@[simp] theorem precedes_exact (a b : K) : precedes a b = decide (a < b) := by
  simp [precedes]

theorem min_exact (a b : K) : Scalar.min a b = Min.min a b := by
  unfold Scalar.min
  by_cases h : b < a
  · rw [if_pos h, min_eq_right h.le]
  · rw [if_neg h, min_eq_left (not_lt.mp h)]

theorem magnitude_exact [IsStrictOrderedRing K] (a : K) : magnitude a = |a| := by
  unfold magnitude
  split
  · exact (abs_of_neg ‹_›).symm
  · exact (abs_of_nonneg (not_lt.mp ‹_›)).symm

theorem total_exact (xs : List K) : total xs = xs.sum := by
  rw [total, List.sum_eq_foldl]

/-! ## Sums of products -/

theorem dot_eq_sum (as bs : List K) : dot as bs = (List.zipWith (· * ·) as bs).sum := by
  unfold dot
  split
  · simp
  · rw [total_exact]

@[simp] theorem dot_nil_left (bs : List K) : dot [] bs = 0 := by
  simp [dot_eq_sum]

@[simp] theorem dot_nil_right (as : List K) : dot as [] = 0 := by
  simp [dot_eq_sum]

@[simp] theorem dot_cons_cons (a b : K) (as bs : List K) :
    dot (a :: as) (b :: bs) = a * b + dot as bs := by
  simp [dot_eq_sum]

theorem dot_comm (as bs : List K) : dot as bs = dot bs as := by
  rw [dot_eq_sum, dot_eq_sum, List.zipWith_comm_of_comm]
  intro a b
  exact mul_comm a b

theorem dot_append {as bs : List K} (h : as.length = bs.length) (cs ds : List K) :
    dot (as ++ cs) (bs ++ ds) = dot as bs + dot cs ds := by
  rw [dot_eq_sum, dot_eq_sum, dot_eq_sum, List.zipWith_append h, List.sum_append]

@[simp] theorem dot_replicate_zero (n : Nat) (bs : List K) : dot (List.replicate n 0) bs = 0 := by
  induction n generalizing bs with
  | zero => simp
  | succ n ih =>
    cases bs with
    | nil => simp
    | cons b bs => simp [List.replicate_succ, ih]

theorem dot_map_mul (c : K) (as bs : List K) : dot (as.map (c * ·)) bs = c * dot as bs := by
  induction as generalizing bs with
  | nil => simp
  | cons a as ih =>
    cases bs with
    | nil => simp
    | cons b bs =>
      rw [List.map_cons, dot_cons_cons, dot_cons_cons, ih]
      ring

theorem dot_zipWith_add {as cs : List K} (h : as.length = cs.length) (bs : List K) :
    dot (List.zipWith (· + ·) as cs) bs = dot as bs + dot cs bs := by
  induction as generalizing bs cs with
  | nil =>
    rw [List.length_eq_zero_iff.mp h.symm]
    simp
  | cons a as ih =>
    cases cs with
    | nil => simp at h
    | cons c cs =>
      cases bs with
      | nil => simp
      | cons b bs =>
        rw [List.zipWith_cons_cons, dot_cons_cons, dot_cons_cons, dot_cons_cons,
          ih (by simpa using h)]
        ring

theorem dot_zipWith_sub {bs cs : List K} (h : bs.length = cs.length) (as : List K) :
    dot as (List.zipWith (· - ·) bs cs) = dot as bs - dot as cs := by
  induction as generalizing bs cs with
  | nil => simp
  | cons a as ih =>
    cases bs with
    | nil =>
      rw [List.length_eq_zero_iff.mp h.symm]
      simp
    | cons b bs =>
      cases cs with
      | nil => simp at h
      | cons c cs =>
        rw [List.zipWith_cons_cons, dot_cons_cons, dot_cons_cons, dot_cons_cons,
          ih (by simpa using h)]
        ring

end Scalar

/-! ## Limits -/

namespace Limit

variable {K : Type} [LinearOrder K]

/-- Whether a number is at or above a lower limit. -/
def IsLower : Limit K → K → Prop
  | finite l, a => l ≤ a
  | negInf, _ => True
  | posInf, _ => False

/-- Whether a number is at or below an upper limit. -/
def IsUpper : Limit K → K → Prop
  | finite u, a => a ≤ u
  | negInf, _ => False
  | posInf, _ => True

end Limit

/-! ## Senses -/

namespace Sense

section Order

variable {K : Type} [LinearOrder K]

/-- The order in which bounds lie below what they bound: at most for costs, at
least for profits. -/
def below (s : Sense) (a b : K) : Prop :=
  match s with
  | min => a ≤ b
  | max => b ≤ a

/-- Whether a limit lies below a number: a lower limit of costs, an upper limit of
profits. -/
def bounds (s : Sense) (l : Limit K) (a : K) : Prop :=
  match s with
  | min => l.IsLower a
  | max => l.IsUpper a

@[simp] theorem bounds_finite (s : Sense) (b a : K) : s.bounds (.finite b) a ↔ s.below b a := by
  cases s <;> rfl

/-- An element of a set that lies below all elements of it: the least one for
costs, the greatest one for profits. -/
def IsBest (s : Sense) (values : Set K) (v : K) : Prop :=
  v ∈ values ∧ ∀ w ∈ values, s.below v w

@[simp] theorem below_refl (s : Sense) (a : K) : s.below a a := by
  cases s <;> exact le_refl a

theorem below_trans {s : Sense} {a b c : K} (hab : s.below a b) (hbc : s.below b c) :
    s.below a c := by
  cases s
  · exact le_trans hab hbc
  · exact le_trans hbc hab

theorem below_antisymm {s : Sense} {a b : K} (hab : s.below a b) (hba : s.below b a) : a = b := by
  cases s
  · exact le_antisymm hab hba
  · exact le_antisymm hba hab

theorem below_total (s : Sense) (a b : K) : s.below a b ∨ s.below b a := by
  cases s
  · exact le_total a b
  · exact le_total b a

instance decidableBelow (s : Sense) (a b : K) : Decidable (s.below a b) :=
  match s with
  | min => inferInstanceAs (Decidable (a ≤ b))
  | max => inferInstanceAs (Decidable (b ≤ a))

theorem IsBest.unique {s : Sense} {values : Set K} {v w : K} (hv : s.IsBest values v)
    (hw : s.IsBest values w) : v = w :=
  below_antisymm (hv.2 w hw.1) (hw.2 v hv.1)

open Classical in
/-- The best element of a set; zero if there is none. -/
noncomputable def best [Zero K] (s : Sense) (values : Set K) : K :=
  if h : ∃ v, s.IsBest values v then h.choose else 0

theorem best_isBest [Zero K] {s : Sense} {values : Set K} (h : ∃ v, s.IsBest values v) :
    s.IsBest values (s.best values) := by
  unfold best
  rw [dif_pos h]
  exact h.choose_spec

theorem IsBest.best_eq [Zero K] {s : Sense} {values : Set K} {v : K} (h : s.IsBest values v) :
    s.best values = v :=
  (best_isBest ⟨v, h⟩).unique h

end Order

section Sign

variable {K : Type} [Field K]

/-- One for minimization and minus one for maximization: the factor that makes
an objective a cost. -/
def sign : Sense → K
  | min => 1
  | max => -1

theorem sign_mul_sign (s : Sense) : (s.sign : K) * s.sign = 1 := by
  cases s <;> simp [sign]

theorem sign_mul_cancel (s : Sense) (a : K) : s.sign * (s.sign * a) = a := by
  rw [← mul_assoc, sign_mul_sign, one_mul]

variable [LinearOrder K] [IsStrictOrderedRing K]

theorem below_iff (s : Sense) (a b : K) : s.below a b ↔ s.sign * a ≤ s.sign * b := by
  cases s <;> simp [below, sign]

theorem below_add {s : Sense} {a b c d : K} (hab : s.below a b) (hcd : s.below c d) :
    s.below (a + c) (b + d) := by
  cases s <;> exact add_le_add hab hcd

theorem below_mul {s : Sense} {a b c : K} (hc : 0 ≤ c) (hab : s.below a b) :
    s.below (c * a) (c * b) := by
  cases s <;> exact mul_le_mul_of_nonneg_left hab hc

/-- With weights that are not negative, entries that lie below others have a
sum below theirs. -/
theorem below_dot {s : Sense} {ws as bs : List K} (hw : ∀ w ∈ ws, 0 ≤ w)
    (h : List.Forall₂ s.below as bs) : s.below (Scalar.dot ws as) (Scalar.dot ws bs) := by
  induction h generalizing ws with
  | nil => simp
  | cons hab _ ih =>
    cases ws with
    | nil => simp
    | cons w ws =>
      rw [Scalar.dot_cons_cons, Scalar.dot_cons_cons]
      exact below_add (below_mul (hw w (by simp)) hab) (ih fun w' hw' => hw w' (by simp [hw']))

end Sign

end Sense

end Multistage
