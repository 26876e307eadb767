/-
Multistage.Proofs.Round.Quota — the passes of a round, out of a double.

The share of a worker is the ceiling of a quotient that has been rounded to the nearest
double (`ceilingOfQuotient_eq_ceil`).  With at most `2^53` passes this is the least number
of passes with which all workers together run as many as were asked for: whatever lies
between a quotient and its double, it is not a whole number (`ceil_rounded`).  So a round
runs at least the passes that it was asked for, and less than one more per worker
(`iterationsPerWorker_quota`).
-/
import Mathlib.Algebra.Order.Floor.Semifield
import Mathlib.Data.Rat.Floor
import Multistage.Proofs.Binary64.Rounded
import Multistage.Proofs.Round.Conservation
import Multistage.Proofs.Round.Evaluation
import Multistage.Proofs.Round.Seeds

namespace Multistage

open Binary64

/-! ## The ceiling of a double -/

namespace Binary64

theorem ceilDiv_eq_ceil (num : ℤ) (den : ℕ) : ceilDiv num den = ⌈(num : ℝ) / den⌉ := by
  have hfloor : ⌊((-num : ℤ) : ℝ) / den⌋ = (-num).fdiv den := by
    rw [Int.floor_div_natCast, Int.floor_intCast, Int.fdiv_eq_ediv_of_nonneg _ (by omega)]
  rw [ceilDiv, ← hfloor, Int.cast_neg, neg_div, Int.floor_neg, neg_neg]

/-- A significand and an exponent, as a fraction of whole numbers. -/
theorem fraction_eq (m : ℕ) (e : ℤ) :
    ((fraction m e).1 : ℝ) / (fraction m e).2 = m * 2 ^ e := by
  cases e with
  | ofNat k => simp [fraction]
  | negSucc k => simp [fraction, zpow_negSucc, div_eq_mul_inv]

end Binary64

/-- The ceiling of a quotient is the ceiling of the double that is nearest to it. -/
theorem ceilingOfQuotient_eq_ceil {n k : ℕ} (hk : 0 < k) {c : ℤ}
    (h : ceilingOfQuotient n k = .ok c) : c = ⌈rounded (n / k)⌉ := by
  unfold ceilingOfQuotient at h
  split at h
  · next hzero =>
    cases h
    rw [Int.natCast_eq_zero.mp hzero, Nat.cast_zero, zero_div, rounded_zero, Int.ceil_zero]
  · next hzero =>
    have hpos : n ≠ 0 := fun h => hzero (congrArg Int.ofNat h)
    rw [Int.natAbs_natCast] at h
    dsimp only at h
    split at h
    · cases h
    · rw [if_neg (by omega)] at h
      cases h
      rw [ceilDiv_eq_ceil, Int.cast_natCast, fraction_eq, roundQuotient_eq hpos hk]

section Exact

variable {n k : ℕ}

/-- Rounding a quotient leaves its ceiling as it is. -/
theorem ceil_rounded (hn : n ≤ 2 ^ 53) (hk : 1 ≤ k) (hk' : k ≤ 2 ^ 53) :
    ⌈rounded (n / k)⌉ = ((n + k - 1) / k : ℕ) :=
  (ceilingOfQuotient_eq_ceil hk (ceilingOfQuotient_exact hn hk (by omega))).symm

theorem isLeast_ceil (hk : 1 ≤ k) : IsLeast {m : ℕ | n ≤ m * k} ((n + k - 1) / k) := by
  obtain ⟨hlow, hhigh⟩ := ceil_spec (n := n) hk
  refine ⟨hlow, fun m (hm : n ≤ m * k) => ?_⟩
  by_contra hlt
  have hnext : (m + 1) * k ≤ (n + k - 1) / k * k := Nat.mul_le_mul_right k (not_le.mp hlt)
  rw [Nat.add_mul, Nat.one_mul] at hnext
  omega

end Exact

/-! ## The passes of all workers -/

/-- All workers are given assignments, and each of them the share of a worker. -/
theorem Coordinator.handed_shares {α : Type} {c : Coordinator α} {n : Value} {share : ℤ}
    (hshare : c.shareOf n = .ok share) {as : List (Assignment α)} (h : c.handed n = .ok as) :
    as.length = c.pool.size ∧ ∀ a ∈ as, a.passes = share := by
  refine ⟨(handed_spec h).2, fun a ha => ?_⟩
  obtain ⟨passes, seeds, hshare', -, rfl⟩ := handed_eq_ok.mp h
  cases hshare.symm.trans hshare'
  obtain ⟨seed, -, rfl⟩ := List.mem_map.mp ha
  rfl

section Rounds

variable {α : Type} [Statistical α] [Seeded α]

/-- A worker answers with one sample for every pass. -/
theorem Assignment.length_forward {a : Assignment α} {samples : List α}
    (h : a.forward = .ok samples) : samples.length = a.passes.toNat := by
  obtain ⟨model, -, h⟩ := bind_eq_ok.mp h
  obtain ⟨draws, -, h⟩ := bind_eq_ok.mp h
  have hany : Transition.Ensures (fun _ => True) model.trajectory fun _ => True :=
    fun _ _ => ⟨trivial, fun _ _ => trivial⟩
  have hcount : Transition.Ensures (fun _ => True) (model.sampleObjectives a.passes.toNat)
      fun samples => samples.length = a.passes.toNat := by
    rw [Model.sampleObjectives_eq]
    refine (hany.times a.passes.toNat).map fun paths hpaths => ?_
    rw [List.length_map, hpaths.1]
  exact (hcount draws trivial).2 samples h

namespace Coordinator

variable {c c' : Coordinator α}

/-- The number of samples that the workers of a forward round return. -/
theorem length_samples {n : Value} {share : ℤ} {schedule : Schedule} {samples : List (List α)}
    (hshare : c.shareOf n = .ok share) (h : c.results n Assignment.forward schedule = .ok samples) :
    samples.flatten.length = c.pool.size * share.toNat := by
  obtain ⟨share', seeds, hshare', hseeds, hsamples⟩ := results_spec h
  cases hshare.symm.trans hshare'
  have heach : ∀ row ∈ samples, row.length = share.toNat :=
    ((List.forall₂_and_left samples seeds).mp (hsamples.flip.imp fun row seed hforward =>
      ⟨Assignment.length_forward hforward, hforward⟩)).1
  rw [List.length_flatten, List.map_congr_left heach, List.map_const', List.sum_replicate,
    smul_eq_mul, ← hsamples.length_eq, length_seeds hseeds]

/-- The samples of a forward round that succeeds are those of all its passes. -/
theorem forwardRound_count (hidle : c.phase = .idle) {n : Value} {share : ℤ}
    (hshare : c.shareOf n = .ok share) {judge : Model α → Except Failure Bool}
    {schedule : Schedule} {good : Bool} {passes : ℕ}
    (h : (forwardRound n judge schedule).perform c = (.ok (good, passes), c')) :
    passes = c.pool.size * share.toNat := by
  rw [forwardRound_perform hidle] at h
  cases hresults : c.results n Assignment.forward schedule with
  | error e => rw [hresults] at h; cases h
  | ok samples =>
    rw [hresults] at h
    cases hjudge : judge (c.model.withSamples samples.flatten) with
    | error e => simp [hjudge, Except.map] at h
    | ok good' =>
      simp only [hjudge, Except.map, Prod.mk.injEq, Except.ok.injEq] at h
      rw [← h.1.2, length_samples hshare hresults]

end Coordinator

end Rounds

/-- Sharing out passes by dividing doubles is exact.  A round hands every worker the least
number of passes with which all of them together run as many as were asked for, and less
than one more each; this many samples a forward round takes. -/
theorem iterationsPerWorker_quota {α : Type} [Statistical α] [Seeded α] {n k : ℕ}
    (hn : n ≤ 2 ^ 53) (hk : 1 ≤ k) (hk' : k ≤ 2 ^ 53) :
    ∃ m : ℕ, iterationsPerWorker (.int n) (.int k) = .ok m ∧ (m : ℤ) = ⌈rounded (n / k)⌉ ∧
      IsLeast {m : ℕ | n ≤ m * k} m ∧ n ≤ k * m ∧ k * m < n + k ∧
      ∀ c : Coordinator α, c.pool.size = k →
        (∀ as, c.handed (.int n) = .ok as → as.length = k ∧ ∀ a ∈ as, a.passes = m) ∧
        ∀ judge schedule good passes c', c.phase = .idle →
          (Coordinator.forwardRound (.int n) judge schedule).perform c
            = (.ok (good, passes), c') → passes = k * m := by
  obtain ⟨hlow, hhigh⟩ := ceil_spec (n := n) hk
  rw [Nat.mul_comm] at hlow hhigh
  have hexact := iterationsPerWorker_exact hn hk (by omega)
  refine ⟨(n + k - 1) / k, hexact, (ceil_rounded hn hk hk').symm, isLeast_ceil hk, hlow, hhigh, ?_⟩
  rintro c rfl
  have hlist : c.pool.isListable = true := decide_eq_true (by omega)
  have hshare : c.shareOf (.int n) = .ok ((n + c.pool.size - 1) / c.pool.size : ℕ) := by
    rw [Coordinator.shareOf, Pool.checkListable, if_pos hlist, ok_bind, hexact]
  exact ⟨fun as => Coordinator.handed_shares hshare,
    fun judge schedule good passes c' hidle h => Coordinator.forwardRound_count hidle hshare h⟩

/-- A quotient that lies just above one, by little more than half a unit in the last place,
and a round of seven passes for three workers. -/
theorem iterationsPerWorker_quota_valley :
    let _ : Quantiles ℚ := ⟨id, fun level _ => level⟩
    let _ : Seeded ℚ := ⟨fun _ => .cycle 0 []⟩
    let c := Coordinator.start Decisions.valleyModel ⟨.thread, 3⟩ (.int 7) .null
    let round := Coordinator.forwardRound (.int 7) (fun _ => .ok true)
      [.completes 2, .completes 0, .completes 1]
    (⌈rounded ((2 ^ 53 - 1 : ℕ) / (2 ^ 53 - 2 : ℕ))⌉ = 2 ∧
      (2 ^ 53 - 1 : ℕ) ≤ (2 ^ 53 - 2) * 2 ∧
      (2 ^ 53 - 2) * 2 < (2 ^ 53 - 1 : ℕ) + (2 ^ 53 - 2)) ∧
      (∃ c', round.perform c = (.ok (true, 9), c')) ∧ IsLeast {m : ℕ | 7 ≤ m * 3} 3 := by
  intro _ _ c round
  constructor
  · obtain ⟨m, -, hceil, -, hlow, hhigh, -⟩ := iterationsPerWorker_quota (α := ℚ)
      (n := 2 ^ 53 - 1) (k := 2 ^ 53 - 2) (by decide) (by decide) (by decide)
    obtain rfl : m = 2 := by omega
    exact ⟨hceil.symm, hlow, hhigh⟩
  · obtain ⟨m, -, -, hleast, -, -, hrounds⟩ := iterationsPerWorker_quota (α := ℚ)
      (n := 7) (k := 3) (by decide) (by decide) (by decide)
    obtain ⟨c', hround⟩ := Transition.exists_perform_of_toOption round c (b := (true, 9))
      (by decide +kernel)
    have hm : 9 = 3 * m := (hrounds c rfl).2 _ _ true 9 c' rfl hround
    obtain rfl : m = 3 := by omega
    exact ⟨⟨c', hround⟩, hleast⟩

end Multistage
