/-
Multistage.Proofs.Binary64.Rounding — bounds on rounded quotients.

A quotient is rounded to a multiple of a unit that depends on its size.  The unit is at
most the quotient over `2^52` (`unitExponent_spec`) and more than the quotient over `2^53`
(`num_lt_unit`), so a rounded significand is at most `2^53` (`roundQuotient_le`).
-/
import Mathlib.Algebra.Order.Field.Power
import Mathlib.Algebra.Order.Field.Rat
import Mathlib.Tactic.FieldSimp
import Mathlib.Tactic.Linarith
import Mathlib.Tactic.Positivity
import Mathlib.Tactic.Ring
import Multistage.Binary64.Exact

namespace Multistage.Binary64

/-! ## Rounding -/

/-- Rounding errs by at most one half. -/
theorem roundHalfEven_error (num : Nat) {den : Nat} (hden : 0 < den) :
    2 * num ≤ 2 * (roundHalfEven num den * den) + den ∧
      2 * (roundHalfEven num den * den) ≤ 2 * num + den := by
  have hsplit := Nat.div_add_mod num den
  have hrest := Nat.mod_lt num hden
  rw [Nat.mul_comm] at hsplit
  unfold roundHalfEven
  dsimp only
  split
  · omega
  · split
    · rw [Nat.add_mul, Nat.one_mul]
      omega
    · split
      · omega
      · rw [Nat.add_mul, Nat.one_mul]
        omega

theorem roundHalfEven_le {num den c : Nat} (hden : 0 < den) (h : num ≤ c * den) :
    roundHalfEven num den ≤ c := by
  have herror := (roundHalfEven_error num hden).2
  by_contra hlt
  have hmul := Nat.mul_le_mul_right den (Nat.lt_of_not_le hlt)
  rw [Nat.succ_mul] at hmul
  omega

theorem le_roundHalfEven {num den c : Nat} (hden : 0 < den) (h : c * den ≤ num) :
    c ≤ roundHalfEven num den := by
  have herror := (roundHalfEven_error num hden).1
  by_contra hlt
  have hmul := Nat.mul_le_mul_right den (Nat.lt_of_not_le hlt)
  rw [Nat.succ_mul] at hmul
  omega

/-- A quotient that lies above the middle is not rounded down. -/
theorem lt_roundHalfEven {num den c : Nat} (hden : 0 < den) (h : 2 * (c * den) + den < 2 * num) :
    c < roundHalfEven num den := by
  have herror := (roundHalfEven_error num hden).1
  by_contra hle
  have hmul := Nat.mul_le_mul_right den (Nat.le_of_not_lt hle)
  omega

theorem roundHalfEven_mul (q : Nat) {den : Nat} (hden : 0 < den) :
    roundHalfEven (q * den) den = q :=
  le_antisymm (roundHalfEven_le hden le_rfl) (le_roundHalfEven hden le_rfl)

theorem ceilDiv_eq {num c den : Nat} (hlow : num ≤ c * den) (hhigh : c * den < num + den) :
    ceilDiv num den = c := by
  have hden : (0 : Int) < den := by omega
  unfold ceilDiv
  rw [Int.fdiv_eq_ediv_of_nonneg _ hden.le]
  have hdiv : (-(num : Int)) / den = -c := by
    apply le_antisymm
    · refine Int.lt_add_one_iff.mp (Int.ediv_lt_of_lt_mul hden ?_)
      zify at hhigh
      linarith
    · refine (Int.le_ediv_iff_mul_le hden).mpr ?_
      zify at hlow
      linarith
  rw [hdiv, neg_neg]

/-- The unit in the last place is at most the quotient over `2^52`. -/
theorem unitExponent_spec {num den : Nat} (hnum : num ≠ 0) (hden : den ≠ 0)
    (hsmall : den < 2 ^ 63) :
    ∃ a b : Nat, unitExponent num den = (a : Int) - b - 52 ∧ den * 2 ^ a ≤ num * 2 ^ b := by
  have hlog : den.log2 < 63 := (Nat.log2_lt hden).mpr hsmall
  have hfloor : den * 2 ^ num.log2 ≤ num * 2 ^ (den.log2 + 1) := by
    have hlow := Nat.log2_self_le hnum
    have hhigh := (Nat.lt_log2_self (n := den)).le
    calc den * 2 ^ num.log2 ≤ 2 ^ (den.log2 + 1) * num := Nat.mul_le_mul hhigh hlow
      _ = num * 2 ^ (den.log2 + 1) := Nat.mul_comm _ _
  -- unless the first guess is right, the next lower power is
  have hlower : ∃ a b : Nat, (num.log2 : Int) - den.log2 - 1 = (a : Int) - b ∧
      den * 2 ^ a ≤ num * 2 ^ b :=
    ⟨num.log2, den.log2 + 1, by push_cast; omega, hfloor⟩
  unfold unitExponent
  dsimp only
  split
  · rename_i e he
    split
    · rename_i habove
      refine ⟨e, 0, ?_, by simpa using habove⟩
      rw [he]
      simp only [Int.ofNat_eq_natCast]
      omega
    · obtain ⟨a, b, hab, hle⟩ := hlower
      exact ⟨a, b, by rw [hab]; omega, hle⟩
  · rename_i e he
    split
    · rename_i habove
      refine ⟨0, e + 1, ?_, by simpa using habove⟩
      rw [he]
      omega
    · obtain ⟨a, b, hab, hle⟩ := hlower
      exact ⟨a, b, by rw [hab]; omega, hle⟩

/-- A quotient lies below twice the power of two that its sizes in bits suggest. -/
theorem num_lt (num : Nat) {den : Nat} (hden : 0 < den) :
    (num : ℚ) < den * 2 ^ ((num.log2 : ℤ) - den.log2 + 1) := by
  have hnum : (num : ℚ) < 2 ^ ((num.log2 : ℤ) + 1) := by
    exact_mod_cast Nat.lt_log2_self (n := num)
  have hlog : (2 : ℚ) ^ (den.log2 : ℤ) ≤ den := by
    exact_mod_cast Nat.log2_self_le hden.ne'
  calc (num : ℚ) < 2 ^ ((num.log2 : ℤ) + 1) := hnum
    _ = 2 ^ (den.log2 : ℤ) * 2 ^ ((num.log2 : ℤ) - den.log2 + 1) := by
      rw [← zpow_add₀ two_ne_zero]
      congr 1
      ring
    _ ≤ den * 2 ^ ((num.log2 : ℤ) - den.log2 + 1) := by gcongr

theorem num_lt_unit (num : Nat) {den : Nat} (hden : 0 < den) :
    (num : ℚ) < den * 2 ^ (unitExponent num den + 53) := by
  have hlt := num_lt num hden
  unfold unitExponent
  dsimp only
  generalize (num.log2 : ℤ) - den.log2 = k at hlt ⊢
  -- below the power of two itself the unit is half as large
  have hmono : ∀ {j j' : ℤ}, j ≤ j' → (den : ℚ) * 2 ^ j ≤ den * 2 ^ j' := fun h => by
    gcongr
    exact one_le_two
  split_ifs with habove
  · exact hlt.trans_le (hmono (by omega))
  · have hbelow : (num : ℚ) < den * 2 ^ k := by
      cases k with
      | ofNat e =>
        simp only [decide_eq_true_eq, not_le] at habove
        have hpow : ((den * 2 ^ e : ℕ) : ℚ) = den * 2 ^ (e : ℤ) := by push_cast; rfl
        exact lt_of_lt_of_eq (by exact_mod_cast habove) hpow
      | negSucc e =>
        simp only [decide_eq_true_eq, not_le] at habove
        rw [zpow_negSucc, ← div_eq_mul_inv, lt_div_iff₀ (by positivity)]
        exact_mod_cast habove
    have hunit := le_max_left (k - 1 - 52) (-1074)
    exact hbelow.trans_le (hmono (by linarith))

/-- Rounding carries at most to the next power of two. -/
theorem roundQuotient_le (num : Nat) {den : Nat} (hden : 0 < den) :
    (roundQuotient num den).1 ≤ 2 ^ 53 := by
  have hlt := num_lt_unit num hden
  unfold roundQuotient
  dsimp only
  generalize unitExponent num den = e at hlt ⊢
  cases e with
  | ofNat k =>
    refine roundHalfEven_le (Nat.mul_pos hden (Nat.two_pow_pos k)) ?_
    rw [zpow_add₀ two_ne_zero, ← mul_assoc] at hlt
    have hpow : ((den * 2 ^ k * 2 ^ 53 : ℕ) : ℚ) = den * 2 ^ (k : ℤ) * 2 ^ (53 : ℤ) := by
      push_cast
      rfl
    rw [Nat.mul_comm (2 ^ 53)]
    exact_mod_cast (lt_of_lt_of_eq hlt hpow.symm).le
  | negSucc k =>
    refine roundHalfEven_le hden ?_
    rw [zpow_add₀ two_ne_zero, zpow_negSucc, mul_left_comm, ← div_eq_inv_mul,
      lt_div_iff₀ (by positivity)] at hlt
    rw [Nat.mul_comm (2 ^ 53)]
    exact_mod_cast hlt.le

end Multistage.Binary64
