/-
Multistage.Proofs.Binary64.Order — the order of the doubles.

A double that is a number has a place: its sign comes first, and doubles of one sign
are told apart by exponent and mantissa.  One number is below another if its place is,
and two numbers are equal if they have one place, as the two zeros do.  The laws of
comparison are those of the order of places, so sorted lists and joined sets of doubles
are what they are for exact numbers (`Scalar.isOrdered_float`).
-/
import Mathlib
import Multistage.Proofs.Cut.Order

namespace Multistage

namespace Binary64

open Float.Model (UnpackedFloat)

/-! ## Places -/

/-- The place of an unpacked double: the sign, the exponent and the mantissa, the last
two reversed below zero. -/
def place : UnpackedFloat → ℤ ×ₗ ℤ ×ₗ ℤ
  | .infinity .negative => toLex (-2, toLex (0, 0))
  | .finite .negative m e _ => toLex (-1, toLex (-e, -(m : ℤ)))
  | .zero _ => toLex (0, toLex (0, 0))
  | .finite .positive m e _ => toLex (1, toLex (e, (m : ℤ)))
  | .infinity .positive => toLex (2, toLex (0, 0))
  | .notANumber => toLex (3, toLex (0, 0))

theorem lt_iff_place (u v : UnpackedFloat) :
    u.lt v = true ↔ u.isNaN = false ∧ v.isNaN = false ∧ place u < place v := by
  rcases u with (_ | _) | _ | (_ | _) | ⟨_ | _, m, e, _⟩ <;>
    rcases v with (_ | _) | _ | (_ | _) | ⟨_ | _, m', e', _⟩ <;>
      simp [UnpackedFloat.lt, UnpackedFloat.compare, UnpackedFloat.isNaN, place,
        Prod.Lex.toLex_lt_toLex, Ordering.then_eq_lt, Ordering.then_eq_gt,
        compare_lt_iff_lt, compare_gt_iff_gt]
  all_goals decide

theorem beq_iff_place (u v : UnpackedFloat) :
    u.beq v = true ↔ u.isNaN = false ∧ v.isNaN = false ∧ place u = place v := by
  rcases u with (_ | _) | _ | (_ | _) | ⟨_ | _, m, e, _⟩ <;>
    rcases v with (_ | _) | _ | (_ | _) | ⟨_ | _, m', e', _⟩ <;>
      simp [UnpackedFloat.beq, UnpackedFloat.compare, UnpackedFloat.isNaN, place,
        Ordering.then_eq_eq]
  all_goals decide

/-! ## Doubles -/

/-- A double in parts. -/
def parts (a : Float) : UnpackedFloat := a.toModel.unpack

theorem lt_iff_parts (a b : Float) : a < b ↔ (parts a).lt (parts b) = true := by
  change decide (a.toModel < b.toModel) = true ↔ _
  rw [decide_eq_true_iff]
  exact Iff.rfl

theorem beq_iff_parts (a b : Float) : (a == b) = true ↔ (parts a).beq (parts b) = true :=
  Iff.rfl

theorem isNaN_eq (a : Float) : Scalar.isNaN a = (parts a).isNaN := by
  unfold Scalar.isNaN
  rw [Bool.eq_iff_iff, Bool.not_eq_true', Bool.eq_false_iff, ne_eq, beq_iff_parts, beq_iff_place]
  simp

theorem lt_iff (a b : Float) : a < b ↔ Scalar.isNaN a = false ∧ Scalar.isNaN b = false ∧
    place (parts a) < place (parts b) := by
  rw [lt_iff_parts, lt_iff_place, isNaN_eq, isNaN_eq]

theorem beq_iff (a b : Float) : (a == b) = true ↔ Scalar.isNaN a = false ∧
    Scalar.isNaN b = false ∧ place (parts a) = place (parts b) := by
  rw [beq_iff_parts, beq_iff_place, isNaN_eq, isNaN_eq]

end Binary64

instance Scalar.isOrdered_float : Scalar.IsOrdered Float where
  symm a b h := by
    rw [Binary64.beq_iff] at h ⊢
    exact ⟨h.2.1, h.1, h.2.2.symm⟩
  trans a b c h h' := by
    rw [Binary64.beq_iff] at h h' ⊢
    exact ⟨h.1, h'.2.1, h.2.2.trans h'.2.2⟩
  lt_asymm a b h h' := by
    rw [Binary64.lt_iff] at h h'
    exact h.2.2.asymm h'.2.2
  lt_trans a b c h h' := by
    rw [Binary64.lt_iff] at h h' ⊢
    exact ⟨h.1, h'.2.1, h.2.2.trans h'.2.2⟩
  lt_of_lt_of_beq a b c h h' := by
    rw [Binary64.lt_iff] at h ⊢
    rw [Binary64.beq_iff] at h'
    exact ⟨h.1, h'.2.1, h.2.2.trans_eq h'.2.2⟩
  lt_of_beq_of_lt a b c h h' := by
    rw [Binary64.beq_iff] at h
    rw [Binary64.lt_iff] at h' ⊢
    exact ⟨h.1, h'.2.1, h.2.2.trans_lt h'.2.2⟩
  total a b ha hb := by
    rw [Binary64.lt_iff, Binary64.beq_iff, Binary64.lt_iff]
    rcases lt_trichotomy (Binary64.place (Binary64.parts a)) (Binary64.place (Binary64.parts b))
      with h | h | h
    · exact .inl ⟨ha, hb, h⟩
    · exact .inr (.inl ⟨ha, hb, h⟩)
    · exact .inr (.inr ⟨hb, ha, h⟩)

end Multistage
