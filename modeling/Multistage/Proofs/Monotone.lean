/-
Multistage.Proofs.Monotone — arithmetic that keeps the order.

Sums and products of doubles are rounded, and rounding keeps the order.  So greater terms
make up a sum that is not smaller, as with exact numbers, unless there is no such sum:
infinities of both signs have none, and what is computed of no number is none
(`Scalar.IsMonotone`).  To be at most another element, if both are numbers, is kept by sums,
by products with weights and by totals (`Scalar.AtMost`).
-/
import Multistage.Proofs.Mirror.Arithmetic

namespace Multistage

namespace Scalar

/-! ## Laws of the order -/

/-- Arithmetic that keeps the order as far as its results are numbers, which they are only if
they are computed of numbers. -/
class IsMonotone (α : Type) [Scalar α] : Prop extends IsSymmetric α where
  le_iff : ∀ a b : α, a ≤ b ↔ a < b ∨ (a == b) = true
  isNaN_of_add : ∀ a b : α, isNaN (a + b) = false → isNaN a = false ∧ isNaN b = false
  isNaN_of_mul : ∀ a b : α, isNaN (a * b) = false → isNaN a = false ∧ isNaN b = false
  add_le_add : ∀ a b c d : α, a ≤ b → c ≤ d → isNaN (a + c) = false → isNaN (b + d) = false →
    a + c ≤ b + d
  mul_le_mul : ∀ a b c : α, 0 ≤ a → b ≤ c → isNaN (a * b) = false → isNaN (a * c) = false →
    a * b ≤ a * c

instance isMonotone_exact {K : Type} [Field K] [LinearOrder K] [IsStrictOrderedRing K] :
    IsMonotone K where
  le_iff a b := by
    rw [beq_iff_eq]
    exact le_iff_lt_or_eq
  isNaN_of_add a b _ := ⟨isNaN_exact a, isNaN_exact b⟩
  isNaN_of_mul a b _ := ⟨isNaN_exact a, isNaN_exact b⟩
  add_le_add _ _ _ _ h h' _ _ := add_le_add h h'
  mul_le_mul _ _ _ ha h _ _ := mul_le_mul_of_nonneg_left h ha

section Order

variable {α : Type} [Scalar α] [IsMonotone α] {a b c d : α}

theorem nonneg_zero : (0 : α) ≤ 0 := by
  have hzero := IsSymmetric.isNaN_zero (α := α)
  rw [isNaN, Bool.not_eq_false'] at hzero
  exact (IsMonotone.le_iff _ _).mpr (.inr hzero)

theorem nonneg_one : (0 : α) ≤ 1 :=
  (IsMonotone.le_iff _ _).mpr (.inl IsSymmetric.zero_lt_one)

/-- Numbers that are not below zero are at least zero. -/
theorem nonneg_of_not_neg (ha : isNaN a = false) (h : ¬a < 0) : 0 ≤ a := by
  rw [IsMonotone.le_iff]
  rcases IsOrdered.total a 0 ha IsSymmetric.isNaN_zero with hlt | heq | hlt
  · exact absurd hlt h
  · exact .inr (BEq.symm heq)
  · exact .inl hlt

/-! ## Sums and products that are numbers -/

/-- Whether an element is at most another one, if both are numbers. -/
def AtMost {α : Type} [Scalar α] (a b : α) : Prop := isNaN a = false → isNaN b = false → a ≤ b

theorem AtMost.zero : AtMost (0 : α) 0 := fun _ _ => nonneg_zero

theorem AtMost.add (h : AtMost a b) (h' : AtMost c d) : AtMost (a + c) (b + d) := by
  intro hac hbd
  obtain ⟨ha, hc⟩ := IsMonotone.isNaN_of_add a c hac
  obtain ⟨hb, hd⟩ := IsMonotone.isNaN_of_add b d hbd
  exact IsMonotone.add_le_add a b c d (h ha hb) (h' hc hd) hac hbd

theorem AtMost.mul (hc : 0 ≤ c) (h : AtMost a b) : AtMost (c * a) (c * b) := by
  intro hca hcb
  obtain ⟨-, ha⟩ := IsMonotone.isNaN_of_mul c a hca
  obtain ⟨-, hb⟩ := IsMonotone.isNaN_of_mul c b hcb
  exact IsMonotone.mul_le_mul c a b hc (h ha hb) hca hcb

/-- A total grows with its terms. -/
theorem AtMost.total {xs ys : List α} (h : List.Forall₂ AtMost xs ys) :
    AtMost (total xs) (total ys) := by
  have hfold : ∀ a b : α, AtMost a b → AtMost (xs.foldl (· + ·) a) (ys.foldl (· + ·) b) := by
    induction h with
    | nil => exact fun a b hab => hab
    | cons hxy _ ih => exact fun a b hab => ih _ _ (hab.add hxy)
  exact hfold 0 0 .zero

end Order

end Scalar

end Multistage
