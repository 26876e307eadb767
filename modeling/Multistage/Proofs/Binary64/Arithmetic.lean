/-
Multistage.Proofs.Binary64.Arithmetic — sums and products of doubles, rounded.

Doubles are rounded bit by bit: a significand is shifted to the right, with a round bit and a
sticky bit for what falls off (`Represents`), and shifted once more if rounding carries.  What
comes out is the real number rounded (`roundWithAccuracy_isReal`).  So the sum and the product
of two doubles are the exact ones, rounded (`StandsFor.add`, `StandsFor.mul`), and as rounding
keeps the order, so do they (`Scalar.isMonotone_float`).
-/
import Multistage.Proofs.Binary64.Value
import Multistage.Proofs.Monotone

namespace Multistage

namespace Binary64

open Float.Model (UnpackedFloat Format totalExponent)
open Float.Model.UnpackedFloat

/-! ## Round and sticky bits -/

/-- What a significand with its two further bits says of a real number. -/
inductive Represents : ExtendedMantissa → ℝ → Prop where
  | exact {m : ℕ} {x : ℝ} (h : x = m) : Represents ⟨m, false, false⟩ x
  | below {m : ℕ} {x : ℝ} (h : m < x) (h' : x < m + 1 / 2) : Represents ⟨m, false, true⟩ x
  | half {m : ℕ} {x : ℝ} (h : x = m + 1 / 2) : Represents ⟨m, true, false⟩ x
  | above {m : ℕ} {x : ℝ} (h : m + 1 / 2 < x) (h' : x < m + 1) : Represents ⟨m, true, true⟩ x

theorem shiftRightOne_even (k : ℕ) (r s : Bool) :
    ExtendedMantissa.shiftRightOne ⟨2 * k, r, s⟩ = ⟨k, false, r || s⟩ := by
  simp [ExtendedMantissa.shiftRightOne]

theorem shiftRightOne_odd (k : ℕ) (r s : Bool) :
    ExtendedMantissa.shiftRightOne ⟨2 * k + 1, r, s⟩ = ⟨k, true, r || s⟩ := by
  simp [ExtendedMantissa.shiftRightOne]
  omega

section Bits

variable {em : ExtendedMantissa} {x : ℝ}

theorem Represents.shiftRightOne (h : Represents em x) : Represents em.shiftRightOne (x / 2) := by
  cases h with
  | @exact m x h =>
    obtain ⟨k, rfl | rfl⟩ := m.even_or_odd' <;> push_cast at h
    · rw [shiftRightOne_even]
      exact .exact (by linarith)
    · rw [shiftRightOne_odd]
      exact .half (by linarith)
  | @below m x h h' =>
    obtain ⟨k, rfl | rfl⟩ := m.even_or_odd' <;> push_cast at h h'
    · rw [shiftRightOne_even]
      exact .below (by linarith) (by linarith)
    · rw [shiftRightOne_odd]
      exact .above (by linarith) (by linarith)
  | @half m x h =>
    obtain ⟨k, rfl | rfl⟩ := m.even_or_odd' <;> push_cast at h
    · rw [shiftRightOne_even]
      exact .below (by linarith) (by linarith)
    · rw [shiftRightOne_odd]
      exact .above (by linarith) (by linarith)
  | @above m x h h' =>
    obtain ⟨k, rfl | rfl⟩ := m.even_or_odd' <;> push_cast at h h'
    · rw [shiftRightOne_even]
      exact .below (by linarith) (by linarith)
    · rw [shiftRightOne_odd]
      exact .above (by linarith) (by linarith)

theorem Represents.shiftRight (h : Represents em x) (n : ℕ) :
    Represents (em >>> n) (x / 2 ^ n) := by
  show Represents (n.repeat ExtendedMantissa.shiftRightOne em) _
  induction n with
  | zero => rwa [pow_zero, div_one]
  | succ n ih =>
    rw [Nat.repeat, pow_succ, ← div_div]
    exact ih.shiftRightOne

/-- The two bits are enough to round to the nearest whole number. -/
theorem Represents.roundedMantissa (h : Represents em x) :
    nearestEven x = em.roundedMantissa := by
  cases h with
  | @exact m x h =>
    rw [h]
    exact nearestEven_intCast m
  | @below m x h h' =>
    have hdist : |x - (m : ℤ)| < 1 / 2 := by
      rw [Int.cast_natCast, abs_lt]
      constructor <;> linarith
    exact eq_nearestEven hdist.le fun heq => absurd heq hdist.ne
  | @half m x h =>
    have hdist : |x - ((m + m % 2 : ℕ) : ℤ)| ≤ 1 / 2 := by
      rw [h, Int.cast_natCast]
      rcases m.mod_two_eq_zero_or_one with hm | hm <;> rw [hm, abs_le] <;> push_cast <;>
        constructor <;> linarith
    exact eq_nearestEven hdist fun _ => by
      rw [Int.even_coe_nat, Nat.even_iff]
      show (m + m % 2) % 2 = 0
      omega
  | @above m x h h' =>
    have hdist : |x - ((m + 1 : ℕ) : ℤ)| < 1 / 2 := by
      rw [Int.cast_natCast, abs_lt]
      push_cast
      constructor <;> linarith
    exact eq_nearestEven hdist.le fun heq => absurd heq hdist.ne

end Bits

/-! ## Rounding -/

theorem targetExponent_eq {m : ℕ} (hm : 0 < m) (e : ℤ) :
    Format.binary64.targetExponent (totalExponent m e) = lastPlace (m * 2 ^ e) := by
  have hpos : (0 : ℝ) < m * 2 ^ e := mul_pos (by exact_mod_cast hm) (zpow_pos two_pos e)
  have hlow : (2 : ℝ) ^ (m.log2 : ℤ) ≤ m := by exact_mod_cast Nat.log2_self_le hm.ne'
  have hhigh : (m : ℝ) < 2 ^ ((m.log2 : ℤ) + 1) := by exact_mod_cast Nat.lt_log2_self (n := m)
  have hlog : Int.log 2 |(m : ℝ) * 2 ^ e| = m.log2 + e := by
    rw [abs_of_pos hpos]
    refine log_eq ?_ ?_
    · rw [zpow_add₀ two_ne_zero]
      gcongr
    · rw [add_right_comm, zpow_add₀ two_ne_zero]
      gcongr
  have htarget : Format.binary64.targetExponent (totalExponent m e)
      = max ((m.log2 : ℤ) + 1 + e - 53) (-1074) := rfl
  rw [htarget, lastPlace, hlog]
  congr 1
  omega

/-- A significand that is shifted to a greater exponent and rounded. -/
theorem shiftToExponent_spec (m : ℕ) {e t : ℤ} (h : e ≤ t) :
    (shiftToExponent m e .exact t).2 = t ∧
      ((shiftToExponent m e .exact t).1.roundedMantissa : ℤ)
        = nearestEven (m * 2 ^ e / 2 ^ t) := by
  have hamount : ((t - e).toNat : ℤ) = t - e := Int.toNat_of_nonneg (sub_nonneg.mpr h)
  have hexact : Represents (ExtendedMantissa.ofMantissaAndAccuracy m .exact) m := .exact rfl
  have hvalue : (m : ℝ) * 2 ^ e / 2 ^ t = m / 2 ^ (t - e).toNat := by
    rw [← zpow_natCast, hamount, zpow_sub₀ two_ne_zero, div_div_eq_mul_div]
  refine ⟨?_, ?_⟩
  · show e + ((t - e).toNat : ℤ) = t
    omega
  · rw [hvalue]
    exact (hexact.shiftRight _).roundedMantissa.symm

/-- A rounded significand is shifted once more if it has carried, and loses nothing. -/
theorem shiftToTargetExponent_carry {r : ℕ} {t : ℤ} (hr : r ≤ 2 ^ 53) (ht : -1074 ≤ t)
    (hnormal : 2 ^ 52 ≤ r ∨ t = -1074) :
    ∃ em e, shiftToTargetExponent .binary64 r t .exact = (em, e) ∧ IsCanonical em.mantissa e ∧
      (em.mantissa : ℝ) * 2 ^ e = r * 2 ^ t := by
  have hshift : ∀ n : ℕ, (max ((r.log2 : ℤ) + 1 + t - 53) (-1074) - t).toNat = n →
      shiftToTargetExponent .binary64 r t .exact
        = (ExtendedMantissa.ofMantissaAndAccuracy r .exact >>> n, t + n) := by
    rintro n rfl
    rfl
  by_cases hcarry : r = 2 ^ 53
  · subst hcarry
    have hlog : (2 ^ 53 : ℕ).log2 = 53 := Nat.log2_two_pow
    refine ⟨⟨2 ^ 52, false, false⟩, t + 1, ?_, ⟨by norm_num, by omega, .inl le_rfl⟩, ?_⟩
    · rw [hshift 1 (by omega)]
      rfl
    · rw [zpow_add₀ two_ne_zero]
      push_cast
      ring
  · have hlog : r.log2 < 53 := by
      by_cases hzero : r = 0
      · subst hzero
        decide
      · exact (Nat.log2_lt hzero).mpr (by omega)
    refine ⟨⟨r, false, false⟩, t, ?_, ⟨by dsimp only; omega, ht, hnormal⟩, rfl⟩
    rw [hshift 0 (by omega), Nat.cast_zero, add_zero]
    rfl

theorem rounded_apply (s : Sign) {n k : ℕ} {e f : ℤ} (h : rounded (n * 2 ^ e) = k * 2 ^ f) :
    rounded ((s.apply n : ℤ) * 2 ^ e) = (s.apply k : ℤ) * 2 ^ f := by
  cases s with
  | positive => simpa [Sign.apply] using h
  | negative => simpa [Sign.apply] using h

/-- A significand and an exponent that is not too large are rounded to the number that they
make up, rounded. -/
theorem roundWithAccuracy_isReal (s : Sign) {m : ℕ} (hm : 0 < m) {e : ℤ}
    (he : e ≤ lastPlace (m * 2 ^ e)) :
    IsReal (roundWithAccuracy .binary64 s m e .exact) (rounded ((s.apply m : ℤ) * 2 ^ e)) := by
  obtain ⟨hexponent, hrounded⟩ := shiftToExponent_spec m he
  have hfirst : shiftToTargetExponent .binary64 m e .exact
      = shiftToExponent m e .exact (lastPlace (m * 2 ^ e)) := by
    unfold shiftToTargetExponent
    rw [targetExponent_eq hm]
  have hround : rounded (m * 2 ^ e)
      = nearestEven (m * 2 ^ e / 2 ^ lastPlace (m * 2 ^ e)) * 2 ^ lastPlace (m * 2 ^ e) :=
    rounded_eq_mul _
  have hle := abs_nearestEven_le (m * 2 ^ e)
  have hleast : -1074 ≤ lastPlace (m * 2 ^ e) := le_max_right _ _
  have hnormal := le_nearestEven (x := m * 2 ^ e) (by positivity)
  unfold roundWithAccuracy
  rw [hfirst]
  generalize shiftToExponent m e .exact (lastPlace (m * 2 ^ e)) = first at hexponent hrounded ⊢
  generalize lastPlace (m * 2 ^ e) = t at *
  obtain ⟨em, f⟩ := first
  dsimp only at hexponent hrounded ⊢
  subst hexponent
  rw [← hrounded] at hround hle hnormal
  obtain ⟨em', f', hcarry, hcanonical, hvalue⟩ :=
    shiftToTargetExponent_carry (by simpa using hle) hleast (by exact_mod_cast hnormal)
  rw [Int.cast_natCast, ← hvalue] at hround
  rw [hcarry, rounded_apply s hround]
  dsimp only
  split_ifs with hzero
  · have hsignificand : (s.apply em'.mantissa : ℤ) = 0 := by
      rw [hzero]
      cases s <;> rfl
    rw [hsignificand, Int.cast_zero, zero_mul]
    exact .zero s
  · exact .finite s _ hcanonical

/-- A smaller exponent takes a greater significand. -/
theorem decreaseExponent_snd (m : ℕ) (e t : ℤ) : (decreaseExponent m e t).2 = min e t := by
  show e - ((e - t).toNat : ℤ) = min e t
  omega

theorem apply_decreaseExponent (s : Sign) (m : ℕ) (e t : ℤ) :
    ((s.apply (decreaseExponent m e t).1 : ℤ) : ℝ) * 2 ^ min e t = (s.apply m : ℤ) * 2 ^ e := by
  have hvalue : ((decreaseExponent m e t).1 : ℝ) * 2 ^ min e t = m * 2 ^ e := by
    have hamount : e - ((e - t).toNat : ℤ) = min e t := decreaseExponent_snd m e t
    show ((m <<< (e - t).toNat : ℕ) : ℝ) * 2 ^ min e t = m * 2 ^ e
    rw [← hamount, Nat.shiftLeft_eq, zpow_sub₀ two_ne_zero, zpow_natCast]
    push_cast
    field_simp
  cases s with
  | positive => simpa [Sign.apply] using hvalue
  | negative => simpa [Sign.apply] using hvalue

theorem round_eq (s : Sign) {m : ℕ} (hm : 0 < m) (e : ℤ) :
    UnpackedFloat.round .binary64 s m e
      = roundWithAccuracy .binary64 s (decreaseExponent m e (lastPlace (m * 2 ^ e))).1
          (min e (lastPlace (m * 2 ^ e))) .exact := by
  rw [← decreaseExponent_snd m, ← targetExponent_eq hm]
  rfl

theorem round_isReal (s : Sign) {m : ℕ} (hm : 0 < m) (e : ℤ) :
    IsReal (UnpackedFloat.round .binary64 s m e) (rounded ((s.apply m : ℤ) * 2 ^ e)) := by
  have hsigned := apply_decreaseExponent s m e (lastPlace (m * 2 ^ e))
  have hvalue := apply_decreaseExponent .positive m e (lastPlace (m * 2 ^ e))
  have hsmaller : min e (lastPlace (m * 2 ^ e)) ≤ lastPlace (m * 2 ^ e) := min_le_right _ _
  rw [round_eq s hm, ← hsigned]
  generalize (decreaseExponent m e (lastPlace (m * 2 ^ e))).1 = m' at hvalue ⊢
  simp only [Sign.apply, Int.cast_natCast] at hvalue
  have hm' : 0 < m' := by
    have hpos : (0 : ℝ) < m' * 2 ^ min e (lastPlace (m * 2 ^ e)) := by
      rw [hvalue]
      positivity
    exact_mod_cast pos_of_mul_pos_left hpos (zpow_pos two_pos _).le
  refine roundWithAccuracy_isReal s hm' ?_
  rw [hvalue]
  exact hsmaller

/-- A whole number and an exponent are rounded to the number that they make up, rounded. -/
theorem normalize_isReal (m e : ℤ) (s : Sign) :
    IsReal (UnpackedFloat.normalize .binary64 m e s) (rounded (m * 2 ^ e)) := by
  unfold UnpackedFloat.normalize
  rcases lt_trichotomy m 0 with h | rfl | h
  · rw [compare_lt_iff_lt.mpr h]
    have hm : Sign.negative.apply ((-m).toNat : ℤ) = m := by
      show -((-m).toNat : ℤ) = m
      omega
    conv_rhs => rw [← hm]
    exact round_isReal .negative (by omega) e
  · rw [compare_eq_iff_eq.mpr rfl, Int.cast_zero, zero_mul, rounded_zero]
    exact .zero s
  · rw [compare_gt_iff_gt.mpr h]
    have hm : Sign.positive.apply (m.toNat : ℤ) = m := Int.toNat_of_nonneg h.le
    conv_rhs => rw [← hm]
    exact round_isReal .positive (by omega) e

/-! ## Sums and products in parts -/

/-- Parts that make up a real number make up a double. -/
theorem IsReal.isDouble {u : UnpackedFloat} {x : ℝ} (h : IsReal u x) : IsDouble x := by
  cases h with
  | zero s =>
    have hzero : IsDouble ((0 : ℤ) * 2 ^ (0 : ℤ)) := .mul (by norm_num) (by norm_num)
    simpa using hzero
  | @finite s m e hm h =>
    refine .mul ?_ h.le
    have hlt := h.lt
    cases s <;> simp [Sign.apply] <;> omega

section Parts

variable {u v : UnpackedFloat} {x y : ℝ}

theorem IsReal.add (h : IsReal u x) (h' : IsReal v y) :
    IsReal (.add .binary64 u v) (rounded (x + y)) := by
  cases h with
  | zero s =>
    rw [zero_add, h'.isDouble.rounded_eq]
    cases h' with
    | zero t =>
      cases s <;> cases t <;> exact .zero _
    | finite t hm' h' => exact .finite t hm' h'
  | @finite s m e hm h =>
    cases h' with
    | zero t =>
      rw [add_zero, (IsReal.finite s hm h).isDouble.rounded_eq]
      exact .finite s hm h
    | @finite t m' e' hm' h' =>
      have hsum := normalize_isReal (s.apply (decreaseExponent m e (min e e')).1
        + t.apply (decreaseExponent m' e' (min e e')).1) (min e e') .positive
      have hvalue := apply_decreaseExponent s m e (min e e')
      have hvalue' := apply_decreaseExponent t m' e' (min e e')
      rw [min_eq_right (min_le_left e e')] at hvalue
      rw [min_eq_right (min_le_right e e')] at hvalue'
      rw [Int.cast_add, add_mul, hvalue, hvalue'] at hsum
      exact hsum

theorem le_lastPlace {m : ℕ} (hm : 0 < m) {e : ℤ} (h : 2 ^ 52 ≤ m ∨ e ≤ -1074) :
    e ≤ lastPlace (m * 2 ^ e) := by
  rw [← targetExponent_eq hm]
  show e ≤ max ((m.log2 : ℤ) + 1 + e - 53) (-1074)
  rcases h with h | h
  · have hlog := (Nat.le_log2 hm.ne').mpr h
    omega
  · omega

theorem IsReal.mul (h : IsReal u x) (h' : IsReal v y) :
    IsReal (.mul .binary64 u v) (rounded (x * y)) := by
  cases h with
  | zero s =>
    rw [zero_mul, rounded_zero]
    cases h' <;> exact .zero _
  | @finite s m e hm h =>
    cases h' with
    | zero t =>
      rw [mul_zero, rounded_zero]
      exact .zero _
    | @finite t m' e' hm' h' =>
      have hsize : 2 ^ 52 ≤ m * m' ∨ e + e' ≤ -1074 := by
        rcases h.normal with hnormal | hleast
        · exact .inl (hnormal.trans (Nat.le_mul_of_pos_right m hm'))
        rcases h'.normal with hnormal | hleast'
        · exact .inl (hnormal.trans (Nat.le_mul_of_pos_left m' hm))
        · exact .inr (by omega)
      have hproduct := roundWithAccuracy_isReal (s * t) (Nat.mul_pos hm hm')
        (le_lastPlace (Nat.mul_pos hm hm') hsize)
      have hvalue : (((s * t).apply (m * m' : ℕ) : ℤ) : ℝ) * 2 ^ (e + e')
          = (s.apply m : ℤ) * 2 ^ e * ((t.apply m' : ℤ) * 2 ^ e') := by
        have hsign : (s * t).apply (m * m' : ℕ) = s.apply m * t.apply m' := by
          cases s <;> cases t <;> simp [Sign.apply]
        rw [hsign, zpow_add₀ two_ne_zero]
        push_cast
        ring
      rw [hvalue] at hproduct
      exact hproduct

end Parts

/-! ## Sums and products of doubles -/

/-- An extended real number rounded to the doubles. -/
noncomputable def nearestDouble (x : EReal) : EReal :=
  if x = ⊤ ∨ x = ⊥ then x else limited (rounded x.toReal)

@[simp] theorem nearestDouble_infinite (s : Sign) : nearestDouble (infinite s) = infinite s := by
  cases s with
  | positive => exact if_pos (.inl rfl)
  | negative => exact if_pos (.inr rfl)

@[simp] theorem nearestDouble_coe (x : ℝ) : nearestDouble x = limited (rounded x) := by
  rw [nearestDouble, if_neg (by simp), EReal.toReal_coe]

theorem nearestDouble_mono {x y : EReal} (h : x ≤ y) : nearestDouble x ≤ nearestDouble y := by
  induction x with
  | bot => exact (nearestDouble_infinite .negative).trans_le bot_le
  | top => rw [top_le_iff.mp h]
  | coe x =>
    induction y with
    | bot => exact absurd h (EReal.bot_lt_coe x).not_ge
    | top => exact le_top.trans_eq (nearestDouble_infinite .positive).symm
    | coe y =>
      rw [nearestDouble_coe, nearestDouble_coe]
      exact limited_mono (rounded_mono (EReal.coe_le_coe_iff.mp h))

theorem standsFor_infinity (s : Sign) : StandsFor (ofParts (.infinity s)) (infinite s) := by
  rw [StandsFor, parts_ofParts_infinity]
  exact .infinity s

theorem isNaN_ofParts_notANumber : Scalar.isNaN (ofParts .notANumber) = true := by decide

section Infinities

variable (s t : Sign) {r : ℝ}

theorem infinite_add_coe : infinite s + (r : EReal) = infinite s := by
  cases s with
  | positive => exact EReal.top_add_coe r
  | negative => exact EReal.bot_add r

theorem infinite_mul_infinite : infinite s * infinite t = infinite (s * t) := by
  cases s <;> cases t <;> rfl

theorem infinite_mul_of_pos (hr : 0 < r) : infinite s * (r : EReal) = infinite s := by
  cases s with
  | positive => exact EReal.top_mul_coe_of_pos hr
  | negative => exact EReal.bot_mul_coe_of_pos hr

theorem infinite_mul_of_neg (hr : r < 0) : infinite s * (r : EReal) = infinite (-s) := by
  cases s with
  | positive => exact EReal.top_mul_coe_of_neg hr
  | negative => exact EReal.bot_mul_coe_of_neg hr

end Infinities

theorem mul_comm_parts (u v : UnpackedFloat) :
    UnpackedFloat.mul .binary64 u v = UnpackedFloat.mul .binary64 v u := by
  have hsign : ∀ s t : Sign, s * t = t * s := by
    rintro (_ | _) (_ | _) <;> rfl
  cases u <;> cases v <;> simp only [UnpackedFloat.mul, hsign, Nat.mul_comm, add_comm]

/-- A product with an infinite factor is infinite, if it is a number. -/
theorem IsReal.infinite_mul {v : UnpackedFloat} {r : ℝ} (h : IsReal v r) (s : Sign)
    (hnumber : Scalar.isNaN (ofParts (.mul .binary64 (.infinity s) v)) = false) :
    StandsFor (ofParts (.mul .binary64 (.infinity s) v)) (nearestDouble (infinite s * r)) := by
  cases h with
  | zero t =>
    have hnan : Scalar.isNaN (ofParts .notANumber) = false := hnumber
    rw [isNaN_ofParts_notANumber] at hnan
    cases hnan
  | @finite t m e hm h =>
    have hpos : (0 : ℝ) < m * 2 ^ e := mul_pos (by exact_mod_cast hm) (zpow_pos two_pos e)
    cases t with
    | positive =>
      rw [infinite_mul_of_pos s (by simpa [Sign.apply] using hpos), nearestDouble_infinite]
      cases s <;> exact standsFor_infinity _
    | negative =>
      rw [infinite_mul_of_neg s (by simpa [Sign.apply] using hpos), nearestDouble_infinite]
      cases s <;> exact standsFor_infinity _

section Doubles

variable {a b : Float} {x y : EReal}

/-- A sum that is a number is the exact one, rounded. -/
theorem StandsFor.add (h : StandsFor a x) (h' : StandsFor b y)
    (hnumber : Scalar.isNaN (a + b) = false) : StandsFor (a + b) (nearestDouble (x + y)) := by
  rw [add_eq] at hnumber ⊢
  unfold StandsFor at h h'
  generalize parts a = u at *
  generalize parts b = v at *
  cases h with
  | infinity s =>
    cases h' with
    | infinity t =>
      -- infinities of both signs have no sum
      cases s with
      | positive =>
        cases t with
        | positive => exact standsFor_infinity .positive
        | negative => exact absurd hnumber (by decide)
      | negative =>
        cases t with
        | positive => exact absurd hnumber (by decide)
        | negative => exact standsFor_infinity .negative
    | real h' =>
      rw [infinite_add_coe, nearestDouble_infinite]
      cases h' <;> exact standsFor_infinity s
  | real h =>
    cases h' with
    | infinity t =>
      rw [add_comm, infinite_add_coe, nearestDouble_infinite]
      cases h <;> exact standsFor_infinity t
    | real h' =>
      rw [← EReal.coe_add, nearestDouble_coe]
      exact standsFor_ofParts (h.add h')

/-- A product that is a number is the exact one, rounded. -/
theorem StandsFor.mul (h : StandsFor a x) (h' : StandsFor b y)
    (hnumber : Scalar.isNaN (a * b) = false) : StandsFor (a * b) (nearestDouble (x * y)) := by
  rw [mul_eq] at hnumber ⊢
  unfold StandsFor at h h'
  generalize parts a = u at *
  generalize parts b = v at *
  cases h with
  | infinity s =>
    cases h' with
    | infinity t =>
      rw [infinite_mul_infinite, nearestDouble_infinite]
      exact standsFor_infinity (s * t)
    | real h' => exact h'.infinite_mul s hnumber
  | real h =>
    cases h' with
    | infinity t =>
      rw [mul_comm_parts] at hnumber ⊢
      rw [mul_comm]
      exact h.infinite_mul t hnumber
    | real h' =>
      rw [← EReal.coe_mul, nearestDouble_coe]
      exact standsFor_ofParts (h.mul h')

/-- What is computed of no number is none. -/
theorem isNaN_of_isNaN {f : UnpackedFloat → UnpackedFloat → UnpackedFloat}
    (hleft : ∀ v, f .notANumber v = .notANumber) (hright : ∀ u, f u .notANumber = .notANumber)
    (h : Scalar.isNaN (ofParts (f (parts a) (parts b))) = false) :
    Scalar.isNaN a = false ∧ Scalar.isNaN b = false := by
  rw [isNaN_eq, isNaN_eq]
  constructor
  · cases hu : parts a with
    | notANumber =>
      rw [hu, hleft, isNaN_ofParts_notANumber] at h
      cases h
    | infinity | zero | finite => rfl
  · cases hv : parts b with
    | notANumber =>
      rw [hv, hright, isNaN_ofParts_notANumber] at h
      cases h
    | infinity | zero | finite => rfl

theorem isNaN_of_add (h : Scalar.isNaN (a + b) = false) :
    Scalar.isNaN a = false ∧ Scalar.isNaN b = false :=
  isNaN_of_isNaN (f := .add .binary64) (fun _ => rfl) (fun u => by cases u <;> rfl) h

theorem isNaN_of_mul (h : Scalar.isNaN (a * b) = false) :
    Scalar.isNaN a = false ∧ Scalar.isNaN b = false :=
  isNaN_of_isNaN (f := .mul .binary64) (fun _ => rfl) (fun u => by cases u <;> rfl) h

/-! ## The order -/

theorem le_iff (a b : Float) : a ≤ b ↔ a < b ∨ (a == b) = true := by
  have hle : a ≤ b ↔ (parts a).le (parts b) = true := by
    change decide (a.toModel ≤ b.toModel) = true ↔ _
    rw [decide_eq_true_iff]
    exact Iff.rfl
  rw [hle, lt_iff_parts, beq_iff_parts, UnpackedFloat.le, UnpackedFloat.lt, UnpackedFloat.beq]
  cases (parts a).compare (parts b) with
  | none => decide
  | some ordering => cases ordering <;> decide

theorem StandsFor.le_iff (h : StandsFor a x) (h' : StandsFor b y) : a ≤ b ↔ x ≤ y := by
  rw [Binary64.le_iff, h.lt_iff h', h.beq_iff h', le_iff_lt_or_eq]

theorem isNaN_of_le (h : a ≤ b) : Scalar.isNaN a = false ∧ Scalar.isNaN b = false := by
  rw [Binary64.le_iff, lt_iff, beq_iff] at h
  rcases h with ⟨ha, hb, -⟩ | ⟨ha, hb, -⟩ <;> exact ⟨ha, hb⟩

end Doubles

theorem standsFor_zero : StandsFor 0 0 := .real (.zero .positive)

end Binary64

/-- Sums and products of doubles are the exact ones rounded, and rounding keeps the order. -/
instance Scalar.isMonotone_float : Scalar.IsMonotone Float where
  le_iff := Binary64.le_iff
  isNaN_of_add _ _ := Binary64.isNaN_of_add
  isNaN_of_mul _ _ := Binary64.isNaN_of_mul
  add_le_add a b c d hab hcd hac hbd := by
    obtain ⟨x, hx⟩ := Binary64.exists_standsFor (Binary64.isNaN_of_le hab).1
    obtain ⟨y, hy⟩ := Binary64.exists_standsFor (Binary64.isNaN_of_le hab).2
    obtain ⟨z, hz⟩ := Binary64.exists_standsFor (Binary64.isNaN_of_le hcd).1
    obtain ⟨w, hw⟩ := Binary64.exists_standsFor (Binary64.isNaN_of_le hcd).2
    rw [hx.le_iff hy] at hab
    rw [hz.le_iff hw] at hcd
    rw [(hx.add hz hac).le_iff (hy.add hw hbd)]
    exact Binary64.nearestDouble_mono (add_le_add hab hcd)
  mul_le_mul a b c ha hbc hab hac := by
    obtain ⟨x, hx⟩ := Binary64.exists_standsFor (Binary64.isNaN_of_le ha).2
    obtain ⟨y, hy⟩ := Binary64.exists_standsFor (Binary64.isNaN_of_le hbc).1
    obtain ⟨z, hz⟩ := Binary64.exists_standsFor (Binary64.isNaN_of_le hbc).2
    have hnonneg : 0 ≤ x := (Binary64.standsFor_zero.le_iff hx).mp ha
    rw [hy.le_iff hz] at hbc
    rw [(hx.mul hy hab).le_iff (hx.mul hz hac)]
    exact Binary64.nearestDouble_mono (mul_le_mul_of_nonneg_left hbc hnonneg)

end Multistage
