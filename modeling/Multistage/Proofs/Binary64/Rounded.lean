/-
Multistage.Proofs.Binary64.Rounded — rounding of the real numbers to the doubles.

`rounded` takes a real number to a nearest double, of which a tie leaves the even one, as
if there were no largest double.  It is stated without words: a multiple of the unit in the
last place, found by rounding to the nearest whole number (`nearestEven`).  No double is
nearer (`rounded_nearest`), a double stays what it is (`IsDouble.rounded_eq`), and rounding
keeps the order (`rounded_mono`).  What the rounding of quotients in Multistage.Binary64
computes is this real number (`roundQuotient_eq`).
-/
import Mathlib.Algebra.Order.Floor.Ring
import Mathlib.Data.Int.Log
import Mathlib.Algebra.Order.Archimedean.Real.Basic
import Mathlib.Tactic.Rify
import Multistage.Proofs.Binary64.Rounding

namespace Multistage.Binary64

/-! ## The nearest whole number -/

/-- The whole number nearest to a real number; a half goes to the even neighbour. -/
noncomputable def nearestEven (x : ℝ) : ℤ :=
  if Int.fract x < 1 - Int.fract x then ⌊x⌋
  else if 1 - Int.fract x < Int.fract x then ⌊x⌋ + 1
  else if Even ⌊x⌋ then ⌊x⌋ else ⌊x⌋ + 1

theorem nearestEven_error (x : ℝ) : |x - nearestEven x| ≤ 1 / 2 := by
  have hsplit := Int.floor_add_fract x
  have hlow := Int.fract_nonneg x
  have hhigh := Int.fract_lt_one x
  rw [abs_le]
  unfold nearestEven
  split_ifs <;> push_cast <;> constructor <;> linarith

theorem nearestEven_even {x : ℝ} (h : |x - nearestEven x| = 1 / 2) : Even (nearestEven x) := by
  have hsplit := Int.floor_add_fract x
  unfold nearestEven at h ⊢
  split_ifs at h ⊢ with hlow hhigh heven
  · have hfract : |Int.fract x| = 1 / 2 := h
    rw [abs_of_nonneg (Int.fract_nonneg x)] at hfract
    linarith
  · have hone := Int.fract_lt_one x
    push_cast at h
    rw [abs_sub_comm, abs_of_nonneg (by linarith)] at h
    linarith
  · exact heven
  · exact (Int.not_even_iff_odd.mp heven).add_one

/-- No other whole number is as near, with a half given to the even one. -/
theorem eq_nearestEven {x : ℝ} {n : ℤ} (herror : |x - n| ≤ 1 / 2)
    (heven : |x - n| = 1 / 2 → Even n) : nearestEven x = n := by
  have herror' := nearestEven_error x
  have heven' := nearestEven_even (x := x)
  generalize nearestEven x = k at herror' heven'
  have hdist : |(k : ℝ) - n| ≤ 1 := by
    calc |(k : ℝ) - n| = |(x - n) - (x - k)| := by congr 1; ring
      _ ≤ |x - n| + |x - k| := abs_sub _ _
      _ ≤ 1 := by linarith
  rw [abs_le] at hdist
  have hlow : (-1 : ℤ) ≤ k - n := by exact_mod_cast hdist.1
  have hhigh : k - n ≤ 1 := by exact_mod_cast hdist.2
  -- two neighbours are equally near, and one of them is odd
  have hodd : ∀ {i j : ℤ}, |x - i| ≤ 1 / 2 → |x - j| ≤ 1 / 2 → j = i + 1 →
      |x - i| = 1 / 2 ∧ |x - j| = 1 / 2 := by
    rintro i j hi hj rfl
    rw [abs_le] at hi hj
    push_cast at hj ⊢
    have hx : x - i = 1 / 2 := by linarith
    rw [show x - (i + 1) = -(1 / 2) by linarith, hx, abs_neg]
    norm_num
  obtain h | h | h : k = n ∨ n = k + 1 ∨ k = n + 1 := by omega
  · exact h
  · obtain ⟨hk, hn⟩ := hodd herror' herror h
    obtain ⟨i, hi⟩ := heven' hk
    obtain ⟨j, hj⟩ := heven hn
    omega
  · obtain ⟨hn, hk⟩ := hodd herror herror' h
    obtain ⟨i, hi⟩ := heven' hk
    obtain ⟨j, hj⟩ := heven hn
    omega

@[simp] theorem nearestEven_intCast (n : ℤ) : nearestEven n = n :=
  eq_nearestEven (by simp) (by simp)

theorem nearestEven_neg (x : ℝ) : nearestEven (-x) = -nearestEven x := by
  have hdist : |-x - (-nearestEven x : ℤ)| = |x - nearestEven x| := by
    rw [Int.cast_neg, neg_sub_neg, abs_sub_comm]
  refine eq_nearestEven (hdist ▸ nearestEven_error x) fun h => ?_
  exact (nearestEven_even (hdist ▸ h)).neg

theorem nearestEven_mono {x y : ℝ} (h : x ≤ y) : nearestEven x ≤ nearestEven y := by
  by_contra hlt
  have hx := abs_le.mp (nearestEven_error x)
  have hy := abs_le.mp (nearestEven_error y)
  have hstep : (nearestEven y : ℝ) + 1 ≤ nearestEven x := by
    exact_mod_cast Int.add_one_le_of_lt (not_le.mp hlt)
  have heq : x = y := by linarith
  exact hlt (heq ▸ le_rfl)

/-- A quotient that lies in the middle goes to the even neighbour. -/
theorem roundHalfEven_even {num den : ℕ} (hden : 0 < den)
    (h : 2 * num = 2 * (roundHalfEven num den * den) + den ∨
      2 * (roundHalfEven num den * den) = 2 * num + den) : Even (roundHalfEven num den) := by
  have hsplit := Nat.div_add_mod num den
  have hrest := Nat.mod_lt num hden
  rw [Nat.mul_comm] at hsplit
  unfold roundHalfEven at h ⊢
  dsimp only at h ⊢
  split_ifs at h ⊢ with hlow hhigh heven
  · omega
  · rw [Nat.add_mul, Nat.one_mul] at h
    omega
  · exact Nat.even_iff.mpr heven
  · exact Nat.even_iff.mpr (by omega)

/-- Rounding a quotient of naturals is rounding the real number that it is. -/
theorem nearestEven_div (num : ℕ) {den : ℕ} (hden : 0 < den) :
    nearestEven (num / den) = roundHalfEven num den := by
  have hpos : (0 : ℝ) < den := by exact_mod_cast hden
  obtain ⟨hlow, hhigh⟩ := roundHalfEven_error num hden
  have heven := @roundHalfEven_even num den hden
  generalize roundHalfEven num den = r at hlow hhigh heven
  obtain ⟨d, hd⟩ : ∃ d : ℤ, d = 2 * num - 2 * (r * den) := ⟨_, rfl⟩
  have hdist : |(num : ℝ) / den - (r : ℤ)| = (|d| : ℤ) / (2 * den) := by
    have hquotient : (num : ℝ) / den - (r : ℤ) = d / (2 * den) := by
      rw [hd]
      push_cast
      field_simp
    rw [hquotient, abs_div, abs_of_pos (mul_pos two_pos hpos), Int.cast_abs]
  refine eq_nearestEven ?_ fun hhalf => ?_
  · have hbound : |d| ≤ den := abs_le.mpr (by omega)
    have hbound' : ((|d| : ℤ) : ℝ) ≤ den := by exact_mod_cast hbound
    rw [hdist, div_le_div_iff₀ (by positivity) two_pos]
    linarith
  · rw [hdist, div_eq_div_iff (by positivity) two_ne_zero] at hhalf
    have hmiddle : ((|d| : ℤ) : ℝ) = (den : ℤ) := by
      rw [Int.cast_natCast]
      linarith
    have hmiddle' : |d| = den := Int.cast_injective hmiddle
    rw [Int.even_coe_nat]
    refine heven ?_
    rcases abs_choice d with h | h
    · exact .inl (by omega)
    · exact .inr (by omega)

theorem nearestEven_nearest (x : ℝ) (k : ℤ) : |x - nearestEven x| ≤ |x - k| := by
  by_cases h : nearestEven x = k
  · rw [h]
  · have herror := nearestEven_error x
    have hgap : (1 : ℝ) ≤ |(nearestEven x : ℝ) - k| := by
      exact_mod_cast Int.one_le_abs (sub_ne_zero.mpr h)
    have htriangle : |(nearestEven x : ℝ) - k| ≤ |x - nearestEven x| + |x - k| := by
      calc |(nearestEven x : ℝ) - k| = |(x - k) - (x - nearestEven x)| := by congr 1; ring
        _ ≤ |x - k| + |x - nearestEven x| := abs_sub _ _
        _ = |x - nearestEven x| + |x - k| := add_comm _ _
    linarith

/-! ## The nearest double -/

/-- The exponent of the unit in the last place of the doubles around a real number. -/
noncomputable def lastPlace (x : ℝ) : ℤ := max (Int.log 2 |x| - 52) (-1074)

/-- A real number rounded to the doubles, as if there were no largest one. -/
noncomputable def rounded (x : ℝ) : ℝ :=
  nearestEven (x / ((2 : ℕ) : ℝ) ^ lastPlace x) * ((2 : ℕ) : ℝ) ^ lastPlace x

theorem rounded_eq_mul (x : ℝ) :
    rounded x = nearestEven (x / 2 ^ lastPlace x) * 2 ^ lastPlace x := by
  rw [rounded, Nat.cast_ofNat]

/-- Real numbers that a significand of 53 bits and an exponent make up. -/
inductive IsDouble : ℝ → Prop where
  | mul {m e : ℤ} (hm : |m| ≤ 2 ^ 53) (he : -1074 ≤ e) : IsDouble (m * 2 ^ e)

@[simp] theorem lastPlace_neg (x : ℝ) : lastPlace (-x) = lastPlace x := by
  rw [lastPlace, abs_neg, lastPlace]

@[simp] theorem rounded_neg (x : ℝ) : rounded (-x) = -rounded x := by
  rw [rounded_eq_mul, lastPlace_neg, neg_div, nearestEven_neg, Int.cast_neg, neg_mul,
    rounded_eq_mul]

@[simp] theorem rounded_zero : rounded 0 = 0 := by
  have hzero := nearestEven_intCast 0
  rw [Int.cast_zero] at hzero
  rw [rounded_eq_mul, zero_div, hzero, Int.cast_zero, zero_mul]

theorem abs_lt_lastPlace (x : ℝ) : |x| < 2 ^ (lastPlace x + 53) := by
  have hlog := Int.lt_zpow_succ_log_self (R := ℝ) one_lt_two |x|
  refine lt_of_lt_of_le (by exact_mod_cast hlog) (zpow_le_zpow_right₀ one_le_two ?_)
  have hmax := le_max_left (Int.log 2 |x| - 52) (-1074)
  rw [lastPlace]
  omega

theorem lastPlace_le_abs {x : ℝ} (hx : x ≠ 0) (h : -1074 < lastPlace x) :
    2 ^ (lastPlace x + 52) ≤ |x| := by
  have hlog := Int.zpow_log_le_self (R := ℝ) one_lt_two (abs_pos.mpr hx)
  have hplace : lastPlace x + 52 = Int.log 2 |x| := by
    unfold lastPlace at h ⊢
    omega
  rw [hplace]
  exact_mod_cast hlog

/-- Whole multiples of the unit in the last place are no nearer. -/
theorem rounded_nearest_multiple (x : ℝ) (k : ℤ) :
    |x - rounded x| ≤ |x - k * 2 ^ lastPlace x| := by
  have hunit : (0 : ℝ) < 2 ^ lastPlace x := zpow_pos two_pos _
  have hscale : ∀ n : ℤ, |x - n * 2 ^ lastPlace x|
      = |x / 2 ^ lastPlace x - n| * 2 ^ lastPlace x := by
    intro n
    rw [← abs_of_pos hunit, ← abs_mul, abs_of_pos hunit, sub_mul, div_mul_cancel₀ _ hunit.ne']
  rw [rounded_eq_mul, hscale, hscale]
  exact mul_le_mul_of_nonneg_right (nearestEven_nearest _ _) hunit.le

/-- No double is nearer to a real number than the one to which it is rounded. -/
theorem rounded_nearest (x : ℝ) {y : ℝ} (hy : IsDouble y) : |x - rounded x| ≤ |x - y| := by
  obtain @⟨m, e, hm, he⟩ := hy
  by_cases hx : x = 0
  · rw [hx, rounded_zero, sub_zero, abs_zero]
    exact abs_nonneg _
  obtain hfine | hcoarse := le_or_gt (lastPlace x) e
  · -- the double is a multiple of the unit
    have hmultiple : (m : ℝ) * 2 ^ e = (m * 2 ^ (e - lastPlace x).toNat : ℤ) * 2 ^ lastPlace x := by
      have hexponent : e = (e - lastPlace x).toNat + lastPlace x := by omega
      conv_lhs => rw [hexponent, zpow_add₀ two_ne_zero, zpow_natCast, ← mul_assoc]
      push_cast
      rfl
    rw [hmultiple]
    exact rounded_nearest_multiple x _
  · -- the double lies beyond a power of two, which is a multiple of the unit
    have hedge := lastPlace_le_abs hx (he.trans_lt hcoarse)
    have hsize : |(m : ℝ) * 2 ^ e| ≤ 2 ^ (lastPlace x + 52) := by
      have hm' : |(m : ℝ)| ≤ 2 ^ (53 : ℤ) := by exact_mod_cast hm
      rw [abs_mul, abs_of_pos (zpow_pos (two_pos : (0 : ℝ) < 2) e)]
      calc |(m : ℝ)| * 2 ^ e ≤ 2 ^ (53 : ℤ) * 2 ^ e := by gcongr
        _ = 2 ^ (53 + e) := (zpow_add₀ two_ne_zero _ _).symm
        _ ≤ 2 ^ (lastPlace x + 52) := zpow_le_zpow_right₀ one_le_two (by omega)
    have hbeyond : |x| - 2 ^ (lastPlace x + 52) ≤ |x - m * 2 ^ e| :=
      (sub_le_sub_left hsize _).trans (abs_sub_abs_le_abs_sub _ _)
    have hpower : (2 : ℝ) ^ (lastPlace x + 52) = (2 ^ 52 : ℤ) * 2 ^ lastPlace x := by
      rw [add_comm, zpow_add₀ two_ne_zero]
      norm_num
    rcases abs_choice x with h | h
    · have hnear := rounded_nearest_multiple x (2 ^ 52)
      have hdist : |x - 2 ^ (lastPlace x + 52)| = x - 2 ^ (lastPlace x + 52) :=
        abs_of_nonneg (by linarith)
      rw [← hpower, hdist] at hnear
      linarith
    · have hnear := rounded_nearest_multiple x (-2 ^ 52)
      have hdist : |x + 2 ^ (lastPlace x + 52)| = -(x + 2 ^ (lastPlace x + 52)) :=
        abs_of_nonpos (by linarith)
      rw [Int.cast_neg, neg_mul, ← hpower, sub_neg_eq_add, hdist] at hnear
      linarith

theorem IsDouble.rounded_eq {y : ℝ} (hy : IsDouble y) : rounded y = y := by
  have hnear := rounded_nearest y hy
  rw [sub_self, abs_zero] at hnear
  exact (sub_eq_zero.mp (abs_eq_zero.mp (le_antisymm hnear (abs_nonneg _)))).symm

theorem abs_nearestEven_le (x : ℝ) : |nearestEven (x / 2 ^ lastPlace x)| ≤ 2 ^ 53 := by
  have hunit : (0 : ℝ) < 2 ^ lastPlace x := zpow_pos two_pos _
  have hsize : |x / 2 ^ lastPlace x| ≤ ((2 ^ 53 : ℤ) : ℝ) := by
    have hlt := abs_lt_lastPlace x
    rw [add_comm, zpow_add₀ two_ne_zero] at hlt
    rw [abs_div, abs_of_pos hunit, div_le_iff₀ hunit]
    exact_mod_cast hlt.le
  rw [abs_le] at hsize ⊢
  have hlow := nearestEven_mono hsize.1
  have hhigh := nearestEven_mono hsize.2
  rw [nearestEven_intCast] at hhigh
  rw [← Int.cast_neg, nearestEven_intCast] at hlow
  exact ⟨hlow, hhigh⟩

/-- A number that is not tiny fills the places down to the last one. -/
theorem le_nearestEven {x : ℝ} (hx : 0 < x) :
    2 ^ 52 ≤ nearestEven (x / 2 ^ lastPlace x) ∨ lastPlace x = -1074 := by
  by_cases hleast : lastPlace x = -1074
  · exact .inr hleast
  · have hlarge : -1074 < lastPlace x := lt_of_le_of_ne (le_max_right _ _) (Ne.symm hleast)
    have hunit : (0 : ℝ) < 2 ^ lastPlace x := zpow_pos two_pos _
    have hle : ((2 ^ 52 : ℤ) : ℝ) ≤ x / 2 ^ lastPlace x := by
      have hedge := lastPlace_le_abs hx.ne' hlarge
      rw [abs_of_pos hx, add_comm, zpow_add₀ two_ne_zero] at hedge
      rw [le_div_iff₀ hunit]
      exact_mod_cast hedge
    have hmono := nearestEven_mono hle
    rw [nearestEven_intCast] at hmono
    exact .inl hmono

theorem rounded_isDouble (x : ℝ) : IsDouble (rounded x) := by
  rw [rounded_eq_mul]
  exact .mul (abs_nearestEven_le x) (le_max_right _ _)

/-- Rounding keeps the order. -/
theorem rounded_mono {x y : ℝ} (h : x ≤ y) : rounded x ≤ rounded y := by
  by_contra hlt
  rw [not_le] at hlt
  -- each lies on the side of the middle that is nearer to its own double
  have hx : rounded x + rounded y ≤ 2 * x := by
    have hnear := rounded_nearest x (rounded_isDouble y)
    cases abs_cases (x - rounded x) <;> cases abs_cases (x - rounded y) <;> linarith
  have hy : 2 * y ≤ rounded x + rounded y := by
    have hnear := rounded_nearest y (rounded_isDouble x)
    cases abs_cases (y - rounded y) <;> cases abs_cases (y - rounded x) <;> linarith
  have heq : x = y := by linarith
  exact hlt.ne' (congrArg rounded heq)

/-! ## Rounded quotients -/

theorem log_eq {x : ℝ} {k : ℤ} (hlow : 2 ^ k ≤ x) (hhigh : x < 2 ^ (k + 1)) : Int.log 2 x = k := by
  have hpos : 0 < x := (zpow_pos two_pos k).trans_le hlow
  have hle : k ≤ Int.log 2 x := (Int.zpow_le_iff_le_log one_lt_two hpos).mp (by exact_mod_cast hlow)
  have hlt : Int.log 2 x < k + 1 :=
    (Int.lt_zpow_iff_log_lt one_lt_two hpos).mp (by exact_mod_cast hhigh)
  omega

/-- The sizes in bits of a numerator and a denominator tell the size of the quotient. -/
theorem quotient_between {num den : ℕ} (hnum : num ≠ 0) (hden : 0 < den) :
    (2 : ℝ) ^ ((num.log2 : ℤ) - den.log2 - 1) ≤ num / den ∧
      (num : ℝ) / den < 2 ^ ((num.log2 : ℤ) - den.log2 + 1) := by
  have hpos : (0 : ℝ) < den := by exact_mod_cast hden
  constructor
  · have hlog : (2 : ℝ) ^ (num.log2 : ℤ) ≤ num := by exact_mod_cast Nat.log2_self_le hnum
    have hlog' : (den : ℝ) ≤ 2 ^ ((den.log2 : ℤ) + 1) := by
      exact_mod_cast (Nat.lt_log2_self (n := den)).le
    rw [le_div_iff₀ hpos]
    calc (2 : ℝ) ^ ((num.log2 : ℤ) - den.log2 - 1) * den
        ≤ 2 ^ ((num.log2 : ℤ) - den.log2 - 1) * 2 ^ ((den.log2 : ℤ) + 1) := by gcongr
      _ = 2 ^ (num.log2 : ℤ) := by
        rw [← zpow_add₀ two_ne_zero]
        congr 1
        ring
      _ ≤ num := hlog
  · have hlt := (Rat.cast_lt (K := ℝ)).mpr (num_lt num hden)
    push_cast at hlt
    rwa [div_lt_iff₀' hpos]

theorem unitExponent_eq {num den : ℕ} (hnum : num ≠ 0) (hden : 0 < den) :
    unitExponent num den = lastPlace (num / den) := by
  obtain ⟨hlow, hhigh⟩ := quotient_between hnum hden
  have hpos : (0 : ℝ) < den := by exact_mod_cast hden
  -- the sizes leave two exponents, and one comparison decides between them
  have hdecide : ∀ {k : ℤ} {above : Prop} [Decidable above], 2 ^ (k - 1) ≤ (num : ℝ) / den →
      (num : ℝ) / den < 2 ^ (k + 1) → (above ↔ (2 : ℝ) ^ k ≤ num / den) →
      Max.max ((if decide above then k else k - 1) - 52) (-1074) = lastPlace (num / den) := by
    intro k above _ hlow hhigh habove
    rw [lastPlace, abs_of_nonneg (by positivity)]
    by_cases h : above
    · rw [decide_eq_true h, if_pos rfl, log_eq (habove.mp h) hhigh]
    · rw [decide_eq_false h, if_neg Bool.false_ne_true,
        log_eq hlow (by rw [sub_add_cancel]; exact not_le.mp (mt habove.mpr h))]
  unfold unitExponent
  dsimp only
  generalize (num.log2 : ℤ) - den.log2 = k at hlow hhigh ⊢
  cases k with
  | ofNat e =>
    refine hdecide hlow hhigh ?_
    rw [le_div_iff₀' hpos, Int.ofNat_eq_natCast, zpow_natCast]
    exact_mod_cast Iff.rfl
  | negSucc e =>
    refine hdecide hlow hhigh ?_
    rw [zpow_negSucc, le_div_iff₀ hpos, inv_mul_le_iff₀ (by positivity), mul_comm _ (num : ℝ)]
    exact_mod_cast Iff.rfl

/-- The parts of a rounded quotient make up the rounded real number. -/
theorem roundQuotient_eq {num den : ℕ} (hnum : num ≠ 0) (hden : 0 < den) :
    ((roundQuotient num den).1 : ℝ) * 2 ^ (roundQuotient num den).2 = rounded (num / den) := by
  unfold roundQuotient
  dsimp only
  rw [rounded_eq_mul, ← unitExponent_eq hnum hden]
  generalize unitExponent num den = e
  congr 1
  rw [← Int.cast_natCast, Int.cast_inj]
  cases e with
  | ofNat k =>
    rw [← nearestEven_div num (Nat.mul_pos hden (Nat.two_pow_pos k))]
    congr 1
    push_cast
    rw [div_div, Int.ofNat_eq_natCast, zpow_natCast]
  | negSucc k =>
    rw [← nearestEven_div _ hden]
    congr 1
    push_cast
    rw [zpow_negSucc, div_inv_eq_mul, div_mul_eq_mul_div]

end Multistage.Binary64
