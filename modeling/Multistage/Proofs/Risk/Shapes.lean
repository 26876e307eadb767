/-
Multistage.Proofs.Risk.Shapes — which arrays pass as a batch.

The check of a batch asks for the number of dimensions of the reference state and of the
duals.  Of objective values and probabilities it asks for the length of the first dimension
only, so both may have further dimensions (`Batch.check_eq_ok`).
-/
import Multistage.Proofs.Except
import Multistage.Risk.Batch

namespace Multistage

variable {α : Type}

namespace Batch

theorem leading_eq_ok {t : Tensor α} {n : Nat} :
    leading t = .ok n ↔ ∃ rest, t.shape = n :: rest := by
  unfold leading
  cases t.shape with
  | nil => simp
  | cons k rest => simp

variable [Scalar α]

/-- Four arrays that pass as a batch of scenarios over a number of states: a vector, a matrix
or, with a single state, a vector, and two arrays with one part per scenario, the second of
which has no entry below zero. -/
structure HasShapes (n scenarios : Nat) (x pi theta prob : Tensor α) : Prop where
  state : x.shape = [n]
  duals : pi.shape = [scenarios, n] ∨ n = 1 ∧ pi.shape = [scenarios]
  objectives : ∃ rest, theta.shape = scenarios :: rest
  probabilities : ∃ rest, prob.shape = scenarios :: rest
  positive : 1 ≤ scenarios
  nonnegative : ∀ p ∈ prob.entries, ¬ p < 0

/-- The checks after those of the reference state and of the duals. -/
theorem check_counts_eq_ok {count width n : Nat} {theta prob : Tensor α} :
    (do
      let scenarios ← leading prob
      if scenarios = 0 then throw BatchFault.noScenario
      let objectives ← leading theta
      if ¬(count = objectives ∧ objectives = scenarios) then
        throw (BatchFault.lengths count objectives scenarios)
      if width ≠ n then throw (BatchFault.dualWidth width n)
      if prob.entries.any fun p => decide (p < 0) then throw BatchFault.negativeProbability)
      = .ok ⟨⟩
    ↔ (∃ rest, theta.shape = count :: rest) ∧ (∃ rest, prob.shape = count :: rest) ∧
        1 ≤ count ∧ width = n ∧ ∀ p ∈ prob.entries, ¬ p < 0 := by
  constructor
  · intro h
    obtain ⟨scenarios, hprob, hsized⟩ := bind_eq_ok.mp h
    obtain ⟨hsome, hchecked⟩ := guard_eq_ok.mp hsized
    obtain ⟨objectives, htheta, hcounted⟩ := bind_eq_ok.mp hchecked
    obtain ⟨hcounts, hrest⟩ := guard_eq_ok.mp hcounted
    obtain ⟨hwidth, hlast⟩ := guard_eq_ok.mp hrest
    have hneg : ¬(prob.entries.any fun p => decide (p < 0)) = true := by
      intro hneg
      rw [if_pos hneg] at hlast
      cases hlast
    obtain ⟨rfl, rfl⟩ := Classical.not_not.mp hcounts
    exact ⟨leading_eq_ok.mp htheta, leading_eq_ok.mp hprob, Nat.one_le_iff_ne_zero.mpr hsome,
      Classical.not_not.mp hwidth, by simpa using hneg⟩
  · rintro ⟨htheta, hprob, hsome, rfl, hneg⟩
    have hneg' : ¬(prob.entries.any fun p => decide (p < 0)) = true := by simpa using hneg
    refine bind_eq_ok.mpr ⟨_, leading_eq_ok.mpr hprob,
      guard_eq_ok.mpr ⟨Nat.one_le_iff_ne_zero.mp hsome, bind_eq_ok.mpr
        ⟨_, leading_eq_ok.mpr htheta, guard_eq_ok.mpr ⟨Classical.not_not.mpr ⟨rfl, rfl⟩,
          guard_eq_ok.mpr ⟨Classical.not_not.mpr rfl, ?_⟩⟩⟩⟩⟩
    exact if_neg hneg'

/-- The arrays that pass as a batch. -/
theorem check_eq_ok {x pi theta prob : Tensor α} :
    check x pi theta prob = .ok ⟨⟩ ↔ ∃ n scenarios, HasShapes n scenarios x pi theta prob := by
  constructor
  · intro h
    unfold check at h
    rcases hx : x.shape with _ | ⟨n, _ | ⟨_, _⟩⟩
    · rw [hx] at h
      cases h
    · rw [hx] at h
      rcases hpi : pi.shape with _ | ⟨k, _ | ⟨w, _ | ⟨_, _⟩⟩⟩
      · rw [hpi] at h
        cases h
      · rw [hpi] at h
        by_cases hone : n = 1
        · subst hone
          obtain ⟨htheta, hprob, hsome, -, hneg⟩ := check_counts_eq_ok.mp h
          exact ⟨1, k, hx, .inr ⟨rfl, hpi⟩, htheta, hprob, hsome, hneg⟩
        · simp only [ok_bind, if_neg hone] at h
          cases h
      · rw [hpi] at h
        obtain ⟨htheta, hprob, hsome, rfl, hneg⟩ := check_counts_eq_ok.mp h
        exact ⟨w, k, hx, .inl hpi, htheta, hprob, hsome, hneg⟩
      · rw [hpi] at h
        cases h
    · rw [hx] at h
      cases h
  · rintro ⟨n, scenarios, h⟩
    have hcounts := fun width (hwidth : width = n) => check_counts_eq_ok.mpr
      ⟨h.objectives, h.probabilities, h.positive, hwidth, h.nonnegative⟩
    unfold check
    rw [h.state]
    rcases h.duals with hpi | ⟨rfl, hpi⟩
    · rw [hpi]
      exact hcounts n rfl
    · rw [hpi]
      exact hcounts 1 rfl

end Batch

end Multistage
