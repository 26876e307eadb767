/-
Multistage.Proofs.LP.Feasible — the points that rows and columns admit.
-/
import Multistage.LP.Program
import Multistage.Proofs.Exact

namespace Multistage

variable {K : Type} [LinearOrder K]

/-! ## Ranges -/

namespace LP

/-- Whether a number is between the limits of a range. -/
def Range.Contains (r : Range K) (a : K) : Prop := r.lower.IsLower a ∧ r.upper.IsUpper a

/-! ## Rows -/

/-- Whether the value of a row stands in a sense to its right-hand side. -/
def RowSense.Holds (s : RowSense) (value rhs : K) : Prop :=
  match s with
  | atMost => value ≤ rhs
  | atLeast => rhs ≤ value
  | equal => value = rhs

/-- Whether the value of a row stands to its right-hand side as a sign says;
what is no sign says nothing that could hold. -/
def SignHolds (sign : Value) (value rhs : K) : Prop :=
  ∃ s, RowSense.parse? sign = some s ∧ s.Holds value rhs

/-- A row of the signs that programs are assembled with. -/
@[simp] theorem signHolds_sign (s : RowSense) (value rhs : K) :
    SignHolds s.sign value rhs ↔ s.Holds value rhs := by
  have hparse : RowSense.parse? s.sign = some s := by cases s <;> rfl
  simp [SignHolds, hparse]

variable [Field K]

theorem RowSense.range_contains (s : RowSense) (value rhs : K) :
    (s.range rhs).Contains value ↔ s.Holds value rhs := by
  cases s with
  | atMost => simp [range, Range.Contains, Holds, Limit.IsLower, Limit.IsUpper]
  | atLeast => simp [range, Range.Contains, Holds, Limit.IsLower, Limit.IsUpper]
  | equal =>
    simp only [range, Range.Contains, Holds, Scalar.limit_exact, Limit.IsLower, Limit.IsUpper]
    exact ⟨fun h => le_antisymm h.2 h.1, fun h => ⟨h.ge, h.le⟩⟩

/-- Whether all rows stand to their right-hand sides as their signs say. -/
def RowsHold (rows : List (List K)) (signs : List Value) (rhs : List K) (w : List K) : Prop :=
  ∀ e ∈ rows.zip (signs.zip rhs), SignHolds e.2.1 (Scalar.dot e.1 w) e.2.2

theorem rowsHold_append {rows rows' : List (List K)} {signs signs' : List Value}
    {rhs rhs' : List K} (hsigns : signs.length = rows.length) (hrhs : rhs.length = rows.length)
    (w : List K) :
    RowsHold (rows ++ rows') (signs ++ signs') (rhs ++ rhs') w
      ↔ RowsHold rows signs rhs w ∧ RowsHold rows' signs' rhs' w := by
  unfold RowsHold
  rw [List.zip_append (hsigns.trans hrhs.symm), List.zip_append (by simp [hsigns, hrhs])]
  simp only [List.mem_append, or_imp, forall_and]

end LP

end Multistage
