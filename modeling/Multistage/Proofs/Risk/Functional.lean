/-
Multistage.Proofs.Risk.Functional — what a risk measure is worth.

A measure assigns one number to the values that scenarios may take.  The
expectation weighs them by their probabilities.  The nested measure mixes the
expectation with the expectation of the worst tail, which is given here by its
variational form and without any order of the scenarios: over all thresholds
`t`, the best of `t` plus the expected excess over `t`, divided by the share
`beta` of the tail.

`tailShares` says how the mass of a tail is taken from scenarios that stand in
order from worst to best.  Two facts about it carry everything that is proved
of nested cuts: shares never say more than any threshold does
(`dot_tailShares_le`), and of sorted values they say as much as the best
threshold (`exists_threshold`).
-/
import Multistage.Proofs.Exact
import Multistage.Risk.Measure

namespace Multistage

variable {K : Type} [Field K] [LinearOrder K]

/-! ## Definitions -/

namespace Risk

/-- The expectation of values. -/
def expectation (p v : List K) : K := (List.zipWith (· * ·) p v).sum

/-- The threshold `t` plus the expected excess of costs over it, per unit of
the tail; for profits, less the expected shortfall. -/
def tailBound (s : Sense) (beta : K) (p v : List K) (t : K) : K :=
  match s with
  | .min => t + 1 / beta * (List.zipWith (fun a b => a * max (b - t) 0) p v).sum
  | .max => t - 1 / beta * (List.zipWith (fun a b => a * max (t - b) 0) p v).sum

/-- The expectation of the worst tail: the least bound for costs, the greatest
one for profits. -/
noncomputable def tailValue (s : Sense) (beta : K) (p v : List K) : K :=
  s.best (Set.range (tailBound s beta p v))

end Risk

namespace Rule

/-- The expectation, or a nested measure with both parameters in range and a
tail that is not empty. -/
def IsCoherent : Rule K → Prop
  | expectation => True
  | nested beta lambda _ => 0 < beta ∧ beta ≤ 1 ∧ 0 ≤ lambda ∧ lambda ≤ 1
  | _ => False

/-- What a coherent measure assigns to values with given probabilities. -/
noncomputable def risk (r : Rule K) (s : Sense) (p v : List K) : K :=
  match r with
  | nested beta lambda _ =>
    lambda * Risk.expectation p v + (1 - lambda) * Risk.tailValue s beta p v
  | _ => Risk.expectation p v

/-- Whether the best threshold exists that a measure asks for. -/
def HasRisk (r : Rule K) (s : Sense) (p v : List K) : Prop :=
  match r with
  | nested beta _ _ =>
    s.IsBest (Set.range (Risk.tailBound s beta p v)) (Risk.tailValue s beta p v)
  | _ => True

@[simp] theorem risk_expectation (s : Sense) (p v : List K) :
    expectation.risk s p v = Risk.expectation p v :=
  rfl

@[simp] theorem risk_nested (beta lambda : K) (slot : Nat) (s : Sense) (p v : List K) :
    (nested beta lambda slot).risk s p v
      = lambda * Risk.expectation p v + (1 - lambda) * Risk.tailValue s beta p v :=
  rfl

end Rule

namespace Risk

/-- The mass that each scenario gives to a tail of mass `left`, when the
scenarios are asked one after another. -/
def tailShares : K → List K → List K
  | _, [] => []
  | left, p :: ps => min p left :: tailShares (left - min p left) ps

/-! ## Both senses at once -/

theorem expectation_eq_dot (p v : List K) : expectation p v = Scalar.dot p v := by
  rw [expectation, Scalar.dot_eq_sum]

theorem sign_mul_tailBound (s : Sense) (beta : K) (p v : List K) (t : K) :
    s.sign * tailBound s beta p v t
      = tailBound .min beta p (v.map (s.sign * ·)) (s.sign * t) := by
  cases s with
  | min => simp [tailBound, Sense.sign]
  | max =>
    simp only [tailBound, Sense.sign, List.zipWith_map_right]
    have hfun : (fun a b : K => a * max (-1 * b - -1 * t) 0)
        = fun a b => a * max (t - b) 0 := by
      funext a b
      ring_nf
    rw [hfun]
    ring

/-! ## Shares of a tail -/

@[simp] theorem length_tailShares (left : K) (ps : List K) :
    (tailShares left ps).length = ps.length := by
  induction ps generalizing left with
  | nil => rfl
  | cons p ps ih => simp [tailShares, ih]

theorem tailShares_zero {ps : List K} (hp : ∀ p ∈ ps, 0 ≤ p) :
    tailShares 0 ps = List.replicate ps.length 0 := by
  induction ps with
  | nil => rfl
  | cons p ps ih =>
    rw [tailShares, min_eq_right (hp p (by simp)), sub_zero, ih fun q hq => hp q (by simp [hq])]
    rfl

variable [IsStrictOrderedRing K]

theorem tailShares_nonneg {left : K} {ps : List K} (hl : 0 ≤ left) (hp : ∀ p ∈ ps, 0 ≤ p) :
    ∀ q ∈ tailShares left ps, 0 ≤ q := by
  induction ps generalizing left with
  | nil => simp [tailShares]
  | cons p ps ih =>
    intro q hq
    rw [tailShares, List.mem_cons] at hq
    rcases hq with rfl | hq
    · exact le_min (hp p (by simp)) hl
    · have hrest : 0 ≤ left - min p left := sub_nonneg.mpr (min_le_right p left)
      exact ih hrest (fun q hq => hp q (by simp [hq])) q hq

/-- A tail takes its whole mass, or all there is. -/
theorem sum_tailShares {left : K} {ps : List K} (hl : 0 ≤ left) (hp : ∀ p ∈ ps, 0 ≤ p) :
    (tailShares left ps).sum = min left ps.sum := by
  induction ps generalizing left with
  | nil => simp [tailShares, hl]
  | cons p ps ih =>
    have hp0 : 0 ≤ p := hp p (by simp)
    have hps : 0 ≤ ps.sum := List.sum_nonneg fun q hq => hp q (by simp [hq])
    have hrest : 0 ≤ left - min p left := sub_nonneg.mpr (min_le_right p left)
    rw [tailShares, List.sum_cons, List.sum_cons, ih hrest fun q hq => hp q (by simp [hq])]
    rcases le_total p left with h | h
    · rw [min_eq_left h, ← min_add_add_left]
      congr 1
      ring
    · rw [min_eq_right h, sub_self, min_eq_left hps, min_eq_left (by linarith), add_zero]

/-- No threshold gives less than what shares of a tail say of any values. -/
theorem dot_tailShares_le {left : K} {ps vs : List K} (hl : 0 ≤ left) (hp : ∀ p ∈ ps, 0 ≤ p)
    (hlen : ps.length = vs.length) (t : K) :
    Scalar.dot (tailShares left ps) vs - (tailShares left ps).sum * t
      ≤ (List.zipWith (fun a b => a * max (b - t) 0) ps vs).sum := by
  induction ps generalizing left vs with
  | nil => simp [tailShares]
  | cons p ps ih =>
    obtain _ | ⟨v, vs⟩ := vs
    · simp at hlen
    have hp0 : 0 ≤ p := hp p (by simp)
    have hrest : 0 ≤ left - min p left := sub_nonneg.mpr (min_le_right p left)
    have hih := ih hrest (fun q hq => hp q (by simp [hq])) (by simpa using hlen)
    have hhead : min p left * (v - t) ≤ p * max (v - t) 0 :=
      calc min p left * (v - t) ≤ min p left * max (v - t) 0 :=
            mul_le_mul_of_nonneg_left (le_max_left _ _) (le_min hp0 hl)
        _ ≤ p * max (v - t) 0 :=
            mul_le_mul_of_nonneg_right (min_le_left _ _) (le_max_right _ _)
    rw [tailShares, Scalar.dot_cons_cons, List.sum_cons, List.zipWith_cons_cons, List.sum_cons]
    linarith

/-- Nothing exceeds a threshold that no value exceeds. -/
theorem sum_excess_eq_zero (ps : List K) {vs : List K} {t : K} (hv : ∀ v ∈ vs, t ≥ v) :
    (List.zipWith (fun a b => a * max (b - t) 0) ps vs).sum = 0 := by
  induction ps generalizing vs with
  | nil => simp
  | cons p ps ih =>
    obtain _ | ⟨v, vs⟩ := vs
    · simp
    have hvt : v - t ≤ 0 := sub_nonpos.mpr (hv v (by simp))
    rw [List.zipWith_cons_cons, List.sum_cons, max_eq_right hvt, mul_zero, zero_add,
      ih fun u hu => hv u (by simp [hu])]

/-- Of values that stand from worst to best, shares of a tail say as much as
the threshold at which the tail is full. -/
theorem exists_threshold {left : K} {ps vs : List K} (hl : 0 < left) (hp : ∀ p ∈ ps, 0 ≤ p)
    (hlen : ps.length = vs.length) (hmass : left ≤ ps.sum)
    (hsorted : vs.Pairwise (· ≥ ·)) :
    ∃ t ∈ vs, Scalar.dot (tailShares left ps) vs - left * t
      = (List.zipWith (fun a b => a * max (b - t) 0) ps vs).sum := by
  induction ps generalizing left vs with
  | nil =>
    rw [List.sum_nil] at hmass
    exact absurd hl (not_lt.mpr hmass)
  | cons p ps ih =>
    obtain _ | ⟨v, vs⟩ := vs
    · simp at hlen
    have hlen' : ps.length = vs.length := by simpa using hlen
    have hp' : ∀ q ∈ ps, 0 ≤ q := fun q hq => hp q (by simp [hq])
    rw [List.pairwise_cons] at hsorted
    obtain ⟨hhead, htail⟩ := hsorted
    rcases le_or_gt left p with h | h
    · -- the first scenario fills the tail
      refine ⟨v, by simp, ?_⟩
      rw [tailShares, min_eq_right h, sub_self, tailShares_zero hp', Scalar.dot_cons_cons,
        Scalar.dot_replicate_zero, List.zipWith_cons_cons, List.sum_cons,
        sum_excess_eq_zero ps hhead]
      simp
    · -- the first scenario is inside the tail, and the threshold is below it
      rw [List.sum_cons] at hmass
      obtain ⟨t, ht, heq⟩ := ih (sub_pos.mpr h) hp' hlen' (by linarith) htail
      refine ⟨t, by simp [ht], ?_⟩
      have hvt : 0 ≤ v - t := sub_nonneg.mpr (hhead t ht)
      rw [tailShares, min_eq_left h.le, Scalar.dot_cons_cons, List.zipWith_cons_cons,
        List.sum_cons, max_eq_left hvt, ← heq]
      ring

end Risk

end Multistage
