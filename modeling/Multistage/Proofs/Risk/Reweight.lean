/-
Multistage.Proofs.Risk.Reweight — what the nested weights add up to.

`reweight` visits scenarios from worst to best and writes one weight for each
of them.  `reweight_exact` says which: in the order of the visits, the weights
are the probabilities and the shares of the tail, mixed.  As the visits reach
every position once, a sum over the positions is a sum over the visits
(`sum_zipWith_perm`), and so a sum weighted by the new weights is a mixture of
the expectation and of a sum weighted by tail shares (`dot_weights`).

The two facts about tail shares become facts about `Risk.tailBound`: at the
values by which the scenarios were ordered the shares attain the best bound,
and at any values they lie below every bound.
-/
import Multistage.Proofs.Risk.Functional
import Multistage.Proofs.Risk.Scratch

namespace Multistage

variable {K : Type} [Field K]

/-! ## Sums along a permutation of the positions -/

theorem sum_zipWith_perm (f : K → K → K) {is : List Nat} {a b : List K}
    (h : is.Perm (List.range a.length)) (hlen : b.length = a.length) :
    (List.zipWith f a b).sum
      = (List.zipWith f (is.map (a.getD · 0)) (is.map (b.getD · 0))).sum := by
  have hb : b = (List.range a.length).map (b.getD · 0) := by rw [← hlen, map_getD_range]
  conv_lhs => rw [← map_getD_range a, hb]
  rw [List.zipWith_map, List.zipWith_map, List.zipWith_self, List.zipWith_self]
  exact (h.map _).sum_eq.symm

/-! ## The order of the visits -/

variable [LinearOrder K]

theorem worstFirst_eq (s : Sense) (theta : List K) :
    worstFirst s theta
      = (((theta.map fun a => -(s.sign * a)).zipIdx).mergeSort
          fun a b => decide (a.1 ≤ b.1)).map Prod.snd := by
  unfold worstFirst
  cases s <;> simp [Sense.sign, ← not_lt]

/-- The visits go from the greatest cost to the least. -/
theorem worstFirst_sorted [IsStrictOrderedRing K] (s : Sense) (theta : List K) :
    ((worstFirst s theta).map fun i => s.sign * theta.getD i 0).Pairwise (· ≥ ·) := by
  rw [worstFirst_eq, List.map_map]
  set pairs := (theta.map fun a => -(s.sign * a)).zipIdx with hpairs
  have hsort : (pairs.mergeSort fun a b => decide (a.1 ≤ b.1)).Pairwise fun a b => a.1 ≤ b.1 := by
    refine (List.pairwise_mergeSort ?_ ?_ pairs).imp fun h => of_decide_eq_true h
    · intro a b c hab hbc
      simp only [decide_eq_true_eq] at hab hbc ⊢
      exact le_trans hab hbc
    · intro a b
      simpa using le_total a.1 b.1
  have hkey : ∀ a ∈ pairs.mergeSort (fun a b => decide (a.1 ≤ b.1)),
      s.sign * theta.getD a.2 0 = -a.1 := by
    intro a ha
    rw [List.mem_mergeSort, hpairs, List.mem_zipIdx_iff_getElem?] at ha
    simp only [List.getElem?_map, Option.map_eq_some_iff] at ha
    obtain ⟨b, hb, hba⟩ := ha
    rw [List.getD_eq_getElem?_getD, hb, ← hba]
    simp
  rw [List.map_congr_left (g := fun a => -a.1) (by simpa using hkey), List.pairwise_map]
  exact hsort.imp fun h => neg_le_neg h

/-! ## The visits -/

namespace TailFill

variable (lambda : K) {beta : K}

/-- Whether the tail is full or not, a visit takes what is left for it. -/
theorem visit_exact {f : TailFill K} (h : f.collected ≤ beta) (i : Nat) {p : K} (hp : 0 ≤ p) :
    f.visit lambda beta i p
      = ⟨f.buffer.set i (lambda * p + (1 - lambda) / beta * min p (beta - f.collected)),
          f.collected + min p (beta - f.collected)⟩ := by
  unfold visit
  by_cases hlt : f.collected < beta
  · rw [if_pos hlt, Scalar.min_exact]
  · have hfull : f.collected = beta := le_antisymm h (not_lt.mp hlt)
    rw [if_neg hlt, hfull, sub_self, min_eq_right hp, mul_zero, add_zero, add_zero, ← hfull]

theorem run_exact [IsStrictOrderedRing K] (beta : K) {p : List K} (hp : ∀ a ∈ p, 0 ≤ a) :
    ∀ (is : List Nat) (f : TailFill K), is.Nodup → (∀ i ∈ is, i < p.length) →
      p.length ≤ f.buffer.length → f.collected ≤ beta →
      ∃ f', run lambda beta p is f = .ok f' ∧ f'.buffer.length = f.buffer.length ∧
        (∀ i, i ∉ is → f'.buffer.getD i 0 = f.buffer.getD i 0) ∧
        is.map (f'.buffer.getD · 0)
          = List.zipWith (fun a q => lambda * a + (1 - lambda) / beta * q) (is.map (p.getD · 0))
              (Risk.tailShares (beta - f.collected) (is.map (p.getD · 0)))
  | [], f, _, _, _, _ => ⟨f, rfl, rfl, fun _ _ => rfl, rfl⟩
  | i :: is, f, hnodup, hin, hlen, hcol => by
    have hi : i < p.length := hin i (by simp)
    have hpi : 0 ≤ p.getD i 0 := by
      rw [List.getD_eq_getElem _ _ hi]
      exact hp _ (List.getElem_mem hi)
    obtain ⟨hnot, hnodup'⟩ := List.nodup_cons.mp hnodup
    have hvisit := visit_exact lambda hcol i hpi
    have hcol' : (f.visit lambda beta i (p.getD i 0)).collected ≤ beta := by
      have := min_le_right (p.getD i 0) (beta - f.collected)
      rw [hvisit]
      dsimp only
      linarith
    obtain ⟨f', hrun, hlen', hkeep, hwritten⟩ := run_exact beta hp is
      (f.visit lambda beta i (p.getD i 0)) hnodup' (fun j hj => hin j (by simp [hj]))
      (by rw [hvisit]; simpa using hlen) hcol'
    refine ⟨f', ?_, ?_, ?_, ?_⟩
    · rw [run, List.getElem?_eq_getElem hi, ← List.getD_eq_getElem p 0 hi]
      exact hrun
    · rw [hlen', hvisit]
      simp
    · intro j hj
      rw [List.mem_cons, not_or] at hj
      rw [hkeep j hj.2, hvisit]
      simp [List.getD_eq_getElem?_getD, List.getElem?_set_ne (Ne.symm hj.1)]
    · have hhere : f'.buffer.getD i 0
          = lambda * p.getD i 0 + (1 - lambda) / beta * min (p.getD i 0) (beta - f.collected) := by
        rw [hkeep i hnot, hvisit]
        simp [List.getD_eq_getElem?_getD, List.getElem?_set_self (lt_of_lt_of_le hi hlen)]
      have hleft : beta - (f.visit lambda beta i (p.getD i 0)).collected
          = beta - f.collected - min (p.getD i 0) (beta - f.collected) := by
        rw [hvisit]
        ring
      rw [List.map_cons, List.map_cons, Risk.tailShares, List.zipWith_cons_cons, hhere, hwritten,
        hleft]

end TailFill

/-! ## Values in the order of the visits -/

/-- The values in the order in which their scenarios are visited. -/
def visited (s : Sense) (theta v : List K) : List K :=
  (worstFirst s theta).map (v.getD · 0)

/-- The sum of values over the worst tail, the scenarios being ordered by
their objectives `theta`. -/
def Risk.tailSum (s : Sense) (beta : K) (p theta v : List K) : K :=
  Scalar.dot (Risk.tailShares beta (visited s theta p)) (visited s theta v)

@[simp] theorem length_visited (s : Sense) (theta v : List K) :
    (visited s theta v).length = theta.length := by
  rw [visited, List.length_map, (worstFirst_perm s theta).length_eq, List.length_range]

theorem visited_perm (s : Sense) {theta v : List K} (h : v.length = theta.length) :
    (visited s theta v).Perm v := by
  conv_rhs => rw [← map_getD_range v, h]
  exact (worstFirst_perm s theta).map _

theorem visited_map_mul (s : Sense) (theta v : List K) (c : K) :
    visited s theta (v.map (c * ·)) = (visited s theta v).map (c * ·) := by
  unfold visited
  rw [List.map_map]
  refine List.map_congr_left fun i _ => ?_
  rcases h : v[i]? with _ | a <;> simp [List.getD_eq_getElem?_getD, h]

theorem visited_forall₂ (s : Sense) {theta v w : List K} {R : K → K → Prop} (h0 : R 0 0)
    (h : List.Forall₂ R v w) : List.Forall₂ R (visited s theta v) (visited s theta w) := by
  have hat : ∀ i, R (v.getD i 0) (w.getD i 0) := by
    induction h with
    | nil => simpa using h0
    | cons hab _ ih =>
      intro i
      cases i with
      | zero => simpa using hab
      | succ i => simpa using ih i
  unfold visited
  rw [List.forall₂_map_left_iff, List.forall₂_map_right_iff, List.forall₂_same]
  exact fun i _ => hat i

theorem dot_visited (s : Sense) {theta v w : List K} (hv : v.length = theta.length)
    (hw : w.length = theta.length) :
    Scalar.dot (visited s theta v) (visited s theta w) = Scalar.dot v w := by
  rw [Scalar.dot_eq_sum, Scalar.dot_eq_sum]
  refine (sum_zipWith_perm _ ?_ (hw.trans hv.symm)).symm
  rw [hv]
  exact worstFirst_perm s theta

theorem visited_take (s : Sense) (theta v : List K) :
    visited s theta (v.take theta.length) = visited s theta v := by
  refine List.map_congr_left fun i hi => ?_
  have hi' : i < theta.length := List.mem_range.mp ((worstFirst_perm s theta).mem_iff.mp hi)
  simp [List.getD_eq_getElem?_getD, List.getElem?_take_of_lt hi']

/-! ## The new weights -/

theorem visited_nonneg {s : Sense} {p theta : List K} (hp : ∀ a ∈ p, 0 ≤ a)
    (hlen : p.length = theta.length) : ∀ a ∈ visited s theta p, 0 ≤ a :=
  fun a ha => hp a ((visited_perm s hlen).mem_iff.mp ha)

section Weights

variable {s : Sense} {beta lambda : K} {p theta : List K}

/-- A sum with the new weights mixes the expectation with the sum over the
tail. -/
theorem dot_weights {filled g : List K} (hlen : p.length = theta.length)
    (hbuffer : p.length ≤ filled.length)
    (hfilled : visited s theta filled
      = List.zipWith (fun a q => lambda * a + (1 - lambda) / beta * q) (visited s theta p)
          (Risk.tailShares beta (visited s theta p)))
    (hg : g.length = p.length) :
    Scalar.dot (filled.take p.length) g
      = lambda * Scalar.dot p g + (1 - lambda) / beta * Risk.tailSum s beta p theta g := by
  have htake : (filled.take p.length).length = theta.length := by
    rw [List.length_take, min_eq_left hbuffer, hlen]
  have hsplit : visited s theta (filled.take p.length)
      = List.zipWith (· + ·) ((visited s theta p).map (lambda * ·))
          ((Risk.tailShares beta (visited s theta p)).map ((1 - lambda) / beta * ·)) := by
    rw [hlen, visited_take, hfilled, List.zipWith_map]
  rw [← dot_visited s htake (hg.trans hlen), hsplit, Scalar.dot_zipWith_add (by simp),
    Scalar.dot_map_mul, Scalar.dot_map_mul, dot_visited s hlen (hg.trans hlen), Risk.tailSum]

theorem Risk.tailSum_map_mul (c : K) (v : List K) :
    Risk.tailSum s beta p theta (v.map (c * ·)) = c * Risk.tailSum s beta p theta v := by
  rw [Risk.tailSum, visited_map_mul, Scalar.dot_comm, Scalar.dot_map_mul, Scalar.dot_comm,
    Risk.tailSum]

/-- The excess of costs over a threshold, in the order of the visits. -/
theorem Risk.sign_mul_tailBound_visited (beta : K) {v : List K} (hlen : p.length = theta.length)
    (hv : v.length = p.length) (t : K) :
    s.sign * Risk.tailBound s beta p v t
      = s.sign * t + 1 / beta * (List.zipWith (fun a b => a * max (b - s.sign * t) 0)
          (visited s theta p) (visited s theta (v.map (s.sign * ·)))).sum := by
  have hperm : (worstFirst s theta).Perm (List.range p.length) := by
    rw [hlen]
    exact worstFirst_perm s theta
  rw [Risk.sign_mul_tailBound, Risk.tailBound, sum_zipWith_perm _ hperm (by simpa using hv)]
  rfl

variable [IsStrictOrderedRing K]

/-- The weights that `reweight` writes, in the order of the visits.  What is in
the buffer after them stays. -/
theorem reweight_exact (s : Sense) (lambda : K) {buffer : List K} (hp : ∀ a ∈ p, 0 ≤ a)
    (hlen : p.length = theta.length)
    (hbuffer : p.length ≤ buffer.length) (hbeta : 0 ≤ beta) :
    ∃ filled, reweight buffer (.ok s) p theta lambda beta = .ok filled ∧
      filled.length = buffer.length ∧ filled.drop p.length = buffer.drop p.length ∧
      visited s theta filled
        = List.zipWith (fun a q => lambda * a + (1 - lambda) / beta * q) (visited s theta p)
            (Risk.tailShares beta (visited s theta p)) := by
  have hperm := worstFirst_perm s theta
  obtain ⟨f, hrun, hlen', hkeep, hwritten⟩ := TailFill.run_exact lambda beta hp
    (worstFirst s theta) ⟨buffer, 0⟩ (hperm.nodup_iff.mpr List.nodup_range)
    (fun i hi => by simpa [hlen] using hperm.mem_iff.mp hi) hbuffer hbeta
  refine ⟨f.buffer, ?_, hlen', ?_, ?_⟩
  · unfold reweight checkBuffer
    rw [if_neg (not_lt.mpr hbuffer)]
    show (TailFill.run lambda beta p (worstFirst s theta) ⟨buffer, 0⟩ >>=
      fun f => pure f.buffer) = _
    rw [hrun]
    rfl
  · refine List.ext_getElem (by simp [hlen']) fun k h₁ h₂ => ?_
    have hpast : p.length + k ∉ worstFirst s theta := by
      rw [hperm.mem_iff, List.mem_range, ← hlen]
      omega
    rw [List.getElem_drop, List.getElem_drop, ← List.getD_eq_getElem _ 0,
      ← List.getD_eq_getElem _ 0]
    exact hkeep _ hpast
  · simpa [visited] using hwritten

/-! ## Tails and thresholds -/

namespace Risk

theorem tailSum_below (hp : ∀ a ∈ p, 0 ≤ a) (hlen : p.length = theta.length) (hbeta : 0 ≤ beta)
    {v w : List K} (h : List.Forall₂ s.below v w) :
    s.below (tailSum s beta p theta v) (tailSum s beta p theta w) :=
  Sense.below_dot (tailShares_nonneg hbeta (visited_nonneg hp hlen))
    (visited_forall₂ s (Sense.below_refl s 0) h)

/-- No threshold gives less than a tail. -/
theorem tailSum_below_tailBound (hp : ∀ a ∈ p, 0 ≤ a) (hlen : p.length = theta.length)
    (hbeta : 0 < beta) (hmass : beta ≤ p.sum) {v : List K} (hv : v.length = p.length) (t : K) :
    s.below (1 / beta * tailSum s beta p theta v) (tailBound s beta p v t) := by
  have hp' := visited_nonneg (s := s) hp hlen
  have hsum : (tailShares beta (visited s theta p)).sum = beta := by
    rw [sum_tailShares hbeta.le hp', (visited_perm s hlen).sum_eq, min_eq_left hmass]
  have hsame : (visited s theta p).length = (visited s theta (v.map (s.sign * ·))).length := by
    simp
  have hshares := dot_tailShares_le hbeta.le hp' hsame (s.sign * t)
  rw [hsum, ← tailSum, tailSum_map_mul] at hshares
  rw [Sense.below_iff, sign_mul_tailBound_visited beta hlen hv]
  have hscaled := mul_le_mul_of_nonneg_left hshares (one_div_nonneg.mpr hbeta.le)
  rw [mul_sub, ← mul_assoc (1 / beta) beta, one_div_mul_cancel hbeta.ne', one_mul] at hscaled
  linarith

/-- Of the values by which the scenarios were ordered, the tail is the best
bound. -/
theorem tailSum_isBest (hp : ∀ a ∈ p, 0 ≤ a) (hlen : p.length = theta.length)
    (hbeta : 0 < beta) (hmass : beta ≤ p.sum) :
    s.IsBest (Set.range (tailBound s beta p theta)) (1 / beta * tailSum s beta p theta theta) := by
  refine ⟨?_, ?_⟩
  · have hsorted : (visited s theta (theta.map (s.sign * ·))).Pairwise (· ≥ ·) := by
      rw [visited_map_mul, visited, List.map_map]
      exact worstFirst_sorted s theta
    obtain ⟨t, -, ht⟩ := exists_threshold hbeta (visited_nonneg (s := s) hp hlen) (by simp)
      (by rwa [(visited_perm s hlen).sum_eq]) hsorted
    rw [← tailSum, tailSum_map_mul] at ht
    refine ⟨s.sign * t, ?_⟩
    have hbound := sign_mul_tailBound_visited (s := s) beta hlen hlen.symm (s.sign * t)
    rw [Sense.sign_mul_cancel, ← ht] at hbound
    rw [← Sense.sign_mul_cancel s (tailBound s beta p theta (s.sign * t)), hbound,
      mul_sub, ← mul_assoc (1 / beta) beta, one_div_mul_cancel hbeta.ne', one_mul,
      add_sub_cancel, mul_left_comm, Sense.sign_mul_cancel]
  · rintro _ ⟨t, rfl⟩
    exact tailSum_below_tailBound hp hlen hbeta hmass hlen.symm t

theorem tailValue_eq (hp : ∀ a ∈ p, 0 ≤ a) (hlen : p.length = theta.length) (hbeta : 0 < beta)
    (hmass : beta ≤ p.sum) : tailValue s beta p theta = 1 / beta * tailSum s beta p theta theta :=
  (tailSum_isBest hp hlen hbeta hmass).best_eq

/-- Whatever orders the scenarios, the tail that it gives is below the worst
one. -/
theorem tailSum_below_tailValue (hp : ∀ a ∈ p, 0 ≤ a) (hlen : p.length = theta.length)
    (hbeta : 0 < beta) (hmass : beta ≤ p.sum) {v : List K} (hv : v.length = p.length) :
    s.below (1 / beta * tailSum s beta p theta v) (tailValue s beta p v) := by
  obtain ⟨t, ht⟩ := (Sense.best_isBest ⟨_, tailSum_isBest (s := s) hp hv.symm hbeta hmass⟩).1
  rw [tailValue, ← ht]
  exact tailSum_below_tailBound hp hlen hbeta hmass hv t

end Risk

/-- Coherent measures are defined for every distribution. -/
theorem Rule.IsCoherent.hasRisk {r : Rule K} (hr : r.IsCoherent) {v : List K}
    (hp : ∀ a ∈ p, 0 ≤ a) (hmass : p.sum = 1) (hlen : p.length = v.length) : r.HasRisk s p v := by
  cases r with
  | nested beta lambda slot =>
    exact Sense.best_isBest ⟨_, Risk.tailSum_isBest hp hlen hr.1 (by rw [hmass]; exact hr.2.1)⟩
  | _ => exact trivial

end Weights

end Multistage
