/-
Multistage.Proofs.Round.Share — the passes of a worker, exactly.

The number of passes per worker goes through a double: the quotient is rounded to 53
binary digits before its ceiling is taken.  With at most `2^53` passes in all, the
rounding does not move the quotient to or across a whole number, so the share is the
ceiling of the exact quotient (`iterationsPerWorker_exact`).
-/
import Mathlib.Tactic.Linarith
import Mathlib.Tactic.Ring
import Multistage.Proofs.Binary64.Rounding
import Multistage.Proofs.Except
import Multistage.Round.Share

namespace Multistage

open Binary64

/-! ## Shares -/

/-- The ceiling of a quotient of naturals. -/
theorem ceil_spec {n k : Nat} (hk : 1 ≤ k) :
    n ≤ (n + k - 1) / k * k ∧ (n + k - 1) / k * k < n + k := by
  have hsplit := Nat.div_add_mod (n + k - 1) k
  have hrest := Nat.mod_lt (n + k - 1) hk
  rw [Nat.mul_comm] at hsplit
  omega

/-- Of a quotient that is rounded to a fraction, the ceiling remains. -/
theorem ceilDiv_roundHalfEven {n k scale : Nat} (hn : n ≤ 2 ^ 53) (hpos : n ≠ 0) (hk : 1 ≤ k)
    (h : k * 2 ^ 52 ≤ n * scale) :
    ceilDiv (roundHalfEven (n * scale) k) scale = ((n + k - 1) / k : Nat) := by
  obtain ⟨hlow, hhigh⟩ := ceil_spec (n := n) hk
  generalize (n + k - 1) / k = c at hlow hhigh
  obtain ⟨c, rfl⟩ : ∃ d, c = d + 1 := Nat.exists_eq_succ_of_ne_zero (by rintro rfl; omega)
  rw [Nat.add_mul, Nat.one_mul] at hlow hhigh
  refine ceilDiv_eq (roundHalfEven_le hk ?_) ?_
  · calc n * scale ≤ (c * k + k) * scale := Nat.mul_le_mul_right _ hlow
      _ = (c + 1) * scale * k := by ring
  rw [Nat.add_mul, Nat.one_mul]
  refine Nat.add_lt_add_right ?_ _
  by_cases hfine : k < 2 * scale
  · -- the whole number below is further away than the rounding reaches
    refine lt_roundHalfEven hk ?_
    have hnext : (c * k + 1) * scale ≤ n * scale := Nat.mul_le_mul_right _ (by omega)
    have hsame : (c * k + 1) * scale = c * scale * k + scale := by ring
    omega
  · -- with so many workers the quotient is at most one, or rounded to 2 ^ 52 units
    refine lt_of_lt_of_le ?_ (le_roundHalfEven hk (by rw [Nat.mul_comm]; exact h))
    have hscale : c * (2 * scale) ≤ c * k := Nat.mul_le_mul_left _ (by omega)
    have hsame : c * (2 * scale) = 2 * (c * scale) := by ring
    omega

theorem roundHalfEven_whole {n k unit : Nat} (hn : n ≤ 2 ^ 53) (hk : 1 ≤ k) (hunit : 1 ≤ unit)
    (h : k * unit * 2 ^ 52 ≤ n) :
    roundHalfEven n (k * unit) * unit = (n + k - 1) / k := by
  have hsmall : k * unit ≤ 2 := by omega
  have hk' : k ≤ 2 := le_trans (Nat.le_mul_of_pos_right _ hunit) hsmall
  have hunit' : unit ≤ 2 := le_trans (Nat.le_mul_of_pos_left _ hk) hsmall
  obtain rfl | rfl : unit = 1 ∨ unit = 2 := by omega
  · obtain rfl | rfl : k = 1 ∨ k = 2 := by omega
    · have hround := roundHalfEven_mul n Nat.one_pos
      simpa using hround
    · obtain rfl : n = 2 ^ 53 := by omega
      rfl
  · obtain rfl : k = 1 := by omega
    obtain rfl : n = 2 ^ 53 := by omega
    rfl

theorem overflows_eq_false {m b : Nat} {e : Int} (hm : m < 2 ^ b) (he : e + b ≤ 1024) :
    overflows m e = false := by
  unfold overflows
  by_cases hzero : m = 0
  · subst hzero
    simp
  · have hlog := (Nat.log2_lt hzero).mpr hm
    have hbelow : ¬1024 ≤ e + (m.log2 : Int) := by omega
    simp [hbelow]

/-- The share of a worker is the ceiling of the exact quotient. -/
theorem ceilingOfQuotient_exact {n k : Nat} (hn : n ≤ 2 ^ 53) (hk : 1 ≤ k) (hsmall : k < 2 ^ 63) :
    ceilingOfQuotient n k = .ok ((n + k - 1) / k : Nat) := by
  by_cases hzero : n = 0
  · subst hzero
    have hceil : (0 + k - 1) / k = 0 := Nat.div_eq_of_lt (by omega)
    rw [hceil]
    rfl
  obtain ⟨a, b, he, hab⟩ := unitExponent_spec hzero (by omega) hsmall
  have hnonzero : ¬(n : Int) = 0 := by omega
  have hnonneg : ¬(n : Int) < 0 := by omega
  unfold ceilingOfQuotient roundQuotient
  rw [if_neg hnonzero, Int.natAbs_natCast]
  dsimp only
  simp only [if_neg hnonneg]
  generalize unitExponent n k = e at he
  match e, he with
  | .ofNat j, he =>
    have hunits : k * 2 ^ j * 2 ^ 52 ≤ n := by
      refine Nat.le_of_mul_le_mul_right ?_ (Nat.two_pow_pos b)
      calc k * 2 ^ j * 2 ^ 52 * 2 ^ b = k * 2 ^ (j + 52 + b) := by rw [pow_add, pow_add]; ring
        _ = k * 2 ^ a := by congr 2; rw [Int.ofNat_eq_natCast] at he; omega
        _ ≤ n * 2 ^ b := hab
    have hpow : (1 : Nat) ≤ 2 ^ j := Nat.one_le_two_pow
    have hm : roundHalfEven n (k * 2 ^ j) ≤ n := by
      refine roundHalfEven_le (Nat.mul_pos hk hpow) ?_
      exact Nat.le_mul_of_pos_right _ (Nat.mul_pos hk hpow)
    have hj : j ≤ 1 := by
      by_contra hj
      have hfour : (2 : Nat) ^ 2 ≤ 2 ^ j := Nat.pow_le_pow_right (by omega) (by omega)
      have hunit := Nat.mul_le_mul hk hfour
      omega
    have hover : overflows (roundHalfEven n (k * 2 ^ j)) (.ofNat j) = false :=
      overflows_eq_false (b := 54) (by omega) (by rw [Int.ofNat_eq_natCast]; omega)
    dsimp only
    rw [hover]
    simp only [fraction, roundHalfEven_whole hn hk hpow hunits]
    rw [ceilDiv_eq (c := (n + k - 1) / k) (by omega) (by omega)]
    rfl
  | .negSucc j, he =>
    have hscaled : k * 2 ^ 52 ≤ n * 2 ^ (j + 1) := by
      refine Nat.le_of_mul_le_mul_right ?_ (Nat.two_pow_pos b)
      calc k * 2 ^ 52 * 2 ^ b = k * 2 ^ (52 + b) := by rw [pow_add]; ring
        _ = k * 2 ^ (a + (j + 1)) := by congr 2; omega
        _ = k * 2 ^ a * 2 ^ (j + 1) := by rw [pow_add]; ring
        _ ≤ n * 2 ^ b * 2 ^ (j + 1) := Nat.mul_le_mul_right _ hab
        _ = n * 2 ^ (j + 1) * 2 ^ b := by ring
    have hm : roundHalfEven (n * 2 ^ (j + 1)) k < 2 ^ (54 + (j + 1)) := by
      calc roundHalfEven (n * 2 ^ (j + 1)) k ≤ n * 2 ^ (j + 1) :=
            roundHalfEven_le hk (Nat.le_mul_of_pos_right _ hk)
        _ < 2 ^ 54 * 2 ^ (j + 1) := Nat.mul_lt_mul_of_pos_right (by omega) (Nat.two_pow_pos _)
        _ = 2 ^ (54 + (j + 1)) := (pow_add ..).symm
    have hover : overflows (roundHalfEven (n * 2 ^ (j + 1)) k) (.negSucc j) = false :=
      overflows_eq_false hm (by omega)
    dsimp only
    rw [hover]
    simp only [fraction, ceilDiv_roundHalfEven hn hzero hk hscaled]
    rfl

/-- The share of a worker, out of at most `2^53` passes. -/
theorem iterationsPerWorker_exact {n k : Nat} (hn : n ≤ 2 ^ 53) (hk : 1 ≤ k)
    (hsmall : k < 2 ^ 63) :
    iterationsPerWorker (.int n) (.int k) = .ok ((n + k - 1) / k : Nat) := by
  have hbelow : ¬(k : Int) < 1 := by omega
  have hexact := ceilingOfQuotient_exact hn hk hsmall
  unfold iterationsPerWorker
  rw [Value.isBelow, decide_eq_false hbelow, ok_bind]
  exact hexact

end Multistage
