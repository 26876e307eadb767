/-
Multistage.Proofs.Risk.Extremal — the worst distribution of the risk envelope.

The envelope of a tail of mass `beta` holds the distributions that nowhere exceed the
probability per unit of the tail.  The nested weights mix the probabilities with the
tail that `Risk.worstTail` spells out at every position, and no distribution of the
envelope has a worse mean.

That the tail is the worst one rests on thresholds: the mean of a distribution of the
envelope lies below every `Risk.tailBound` (`InEnvelope.below_tailBound`), and the tail
attains the best of them.  What is said of ties rests on the visits: a later scenario has
a share only after the earlier ones have given all they have
(`Risk.tailShares_full_before`), and equals are visited in their own order
(`turn_lt_turn`).
-/
import Multistage.Proofs.Risk.Reweight
import Mathlib.Algebra.BigOperators.Fin
import Mathlib.Algebra.Order.BigOperators.Group.Finset
import Mathlib.Tactic.NormNum

namespace Multistage

variable {K : Type} [Field K] [LinearOrder K]

/-! ## Turns -/

/-- When a scenario is visited. -/
def turn (s : Sense) (theta : List K) (i : Nat) : Nat := (worstFirst s theta).idxOf i

section Turns

variable {s : Sense} {theta : List K} {i j : Nat}

theorem worstFirst_nodup (s : Sense) (theta : List K) : (worstFirst s theta).Nodup :=
  (worstFirst_perm s theta).nodup_iff.mpr List.nodup_range

theorem turn_lt_length (hi : i < theta.length) : turn s theta i < theta.length := by
  have hmem : i ∈ worstFirst s theta :=
    (worstFirst_perm s theta).mem_iff.mpr (List.mem_range.mpr hi)
  simpa [turn, (worstFirst_perm s theta).length_eq] using List.idxOf_lt_length_of_mem hmem

theorem getD_visited_turn (hi : i < theta.length) (v : List K) :
    (visited s theta v).getD (turn s theta i) 0 = v.getD i 0 := by
  rw [List.getD_eq_getElem _ _ (by simpa using turn_lt_length hi)]
  simp only [visited, List.getElem_map, turn, List.getElem_idxOf]

/-- A list written down turn by turn. -/
theorem visited_of_turns {shares v : List K} (hlen : shares.length = theta.length)
    (h : ∀ i < theta.length, v.getD i 0 = shares.getD (turn s theta i) 0) :
    visited s theta v = shares := by
  refine List.ext_getElem (by simp [hlen]) fun k h₁ h₂ => ?_
  have hk : k < (worstFirst s theta).length := by simpa [visited] using h₁
  have hplace : (worstFirst s theta)[k] < theta.length :=
    List.mem_range.mp ((worstFirst_perm s theta).mem_iff.mp (List.getElem_mem hk))
  rw [← List.getD_eq_getElem shares 0 h₂]
  simp only [visited, List.getElem_map]
  rw [h _ hplace, turn, (worstFirst_nodup s theta).idxOf_getElem]

/-- Scenarios of one objective value are visited in their own order. -/
theorem turn_lt_turn (hij : i < j) (hj : j < theta.length)
    (h : theta.getD i 0 = theta.getD j 0) : turn s theta i < turn s theta j := by
  have hi : i < theta.length := hij.trans hj
  set pairs := (theta.map fun a => -(s.sign * a)).zipIdx with hpairs
  have hat : ∀ k, k < theta.length → (-(s.sign * theta.getD k 0), k) ∈ pairs.drop k ∧
      ∀ l, k < l → (-(s.sign * theta.getD k 0), k) ∈ pairs.take l := by
    intro k hk
    have hpair : pairs[k]? = some (-(s.sign * theta.getD k 0), k) := by
      simp [hpairs, hk]
    refine ⟨List.mem_of_getElem? (i := 0) (by rwa [List.getElem?_drop]), fun l hl => ?_⟩
    exact List.mem_of_getElem? (i := k) (by rwa [List.getElem?_take_of_lt hl])
  have hsub : [(-(s.sign * theta.getD i 0), i), (-(s.sign * theta.getD j 0), j)].Sublist
      pairs := by
    rw [← List.take_append_drop j pairs]
    exact (List.singleton_sublist.mpr ((hat i hi).2 j hij)).append
      (List.singleton_sublist.mpr (hat j hj).1)
  -- the sort is stable
  have hsorted : [(-(s.sign * theta.getD i 0), i), (-(s.sign * theta.getD j 0), j)].Sublist
      (pairs.mergeSort fun a b => decide (a.1 ≤ b.1)) := by
    refine List.pair_sublist_mergeSort ?_ ?_ (by rw [h]; simp) hsub
    · intro a b c hab hbc
      simp only [decide_eq_true_eq] at hab hbc ⊢
      exact le_trans hab hbc
    · intro a b
      simpa using le_total a.1 b.1
  have horder : ([i] ++ [j]).Sublist (worstFirst s theta) := by
    rw [worstFirst_eq]
    simpa using hsorted.map Prod.snd
  have hnodup := worstFirst_nodup s theta
  obtain ⟨before, after, hsplit, hbefore, hafter⟩ := List.append_sublist_iff.mp horder
  rw [List.singleton_sublist] at hbefore hafter
  rw [hsplit, List.nodup_append] at hnodup
  have hlater : j ∉ before := fun hmem => hnodup.2.2 j hmem j hafter rfl
  unfold turn
  rw [hsplit, List.idxOf_append_of_mem hbefore, List.idxOf_append_of_notMem hlater]
  exact Nat.lt_add_right _ (List.idxOf_lt_length_of_mem hbefore)

end Turns

/-! ## Shares of a tail, one by one -/

namespace Risk

theorem tailShares_le (left : K) (ps : List K) (k : Nat) :
    (tailShares left ps).getD k 0 ≤ ps.getD k 0 := by
  induction ps generalizing left k with
  | nil => simp [tailShares]
  | cons p ps ih =>
    cases k with
    | zero => exact min_le_left p left
    | succ k => exact ih _ k

/-- A scenario has a share only when those before it have given all they have. -/
theorem tailShares_full_before [IsStrictOrderedRing K] {left : K} {ps : List K}
    (hp : ∀ p ∈ ps, 0 ≤ p) :
    ∀ {k l : Nat}, k < l → 0 < (tailShares left ps).getD l 0 →
      (tailShares left ps).getD k 0 = ps.getD k 0 := by
  induction ps generalizing left with
  | nil => simp [tailShares]
  | cons p ps ih =>
    have hp' : ∀ q ∈ ps, 0 ≤ q := fun q hq => hp q (by simp [hq])
    intro k l hkl hl
    obtain ⟨l, rfl⟩ : ∃ l', l = l' + 1 := ⟨l - 1, by omega⟩
    rw [tailShares, List.getD_cons_succ] at hl
    cases k with
    | succ k => exact ih hp' (by omega) hl
    | zero =>
      -- had the tail been full, nothing would be left for a later one
      rcases le_or_gt left p with hfull | hroom
      · rw [min_eq_right hfull, sub_self, tailShares_zero hp'] at hl
        rw [List.getD_eq_getElem?_getD, List.getElem?_getD_replicate_default_eq] at hl
        exact absurd hl (lt_irrefl 0)
      · exact min_eq_left hroom.le

/-! ## The envelope -/

/-- The distributions that nowhere exceed the probability per unit of a tail of mass
`beta`. -/
structure InEnvelope {S : Nat} (beta : K) (p q : Fin S → K) : Prop where
  nonneg : ∀ i, 0 ≤ q i
  le : ∀ i, q i ≤ p i / beta
  mass : ∑ i, q i = 1

/-- What the worst tail of mass `beta` takes from each scenario, per unit of the tail. -/
def worstTail {S : Nat} (s : Sense) (beta : K) (p theta : Fin S → K) (i : Fin S) : K :=
  (tailShares beta (visited s (List.ofFn theta) (List.ofFn p))).getD
    (turn s (List.ofFn theta) i) 0 / beta

variable {S : Nat} {s : Sense} {beta : K} {p theta q : Fin S → K}

omit [LinearOrder K] in
theorem sum_zipWith_ofFn (f : K → K → K) (v w : Fin S → K) :
    (List.zipWith f (List.ofFn v) (List.ofFn w)).sum = ∑ i, f (v i) (w i) := by
  rw [← List.sum_ofFn]
  refine congrArg List.sum (List.ext_getElem (by simp) fun i h₁ h₂ => ?_)
  simp

theorem dot_ofFn (v w : Fin S → K) :
    Scalar.dot (List.ofFn v) (List.ofFn w) = ∑ i, v i * w i := by
  rw [Scalar.dot_eq_sum, sum_zipWith_ofFn]

/-- In the order of the visits the worst tail is made of the shares. -/
theorem visited_worstTail (s : Sense) (beta : K) (p theta : Fin S → K) :
    visited s (List.ofFn theta) (List.ofFn (worstTail s beta p theta))
      = (tailShares beta (visited s (List.ofFn theta) (List.ofFn p))).map (1 / beta * ·) := by
  refine visited_of_turns (by simp) fun i hi => ?_
  have hturn := turn_lt_length (s := s) hi
  rw [List.getD_eq_getElem _ _ (by simpa using hi), List.getD_eq_getElem _ _ (by simpa using hturn),
    List.getElem_ofFn, List.getElem_map, worstTail, List.getD_eq_getElem _ _ (by simpa using hturn)]
  ring

/-- The mean of the worst tail is what its sum gives per unit. -/
theorem sum_worstTail_mul (s : Sense) (beta : K) (p theta : Fin S → K) :
    ∑ i, worstTail s beta p theta i * theta i
      = 1 / beta * tailSum s beta (List.ofFn p) (List.ofFn theta) (List.ofFn theta) := by
  have hlen : (List.ofFn (worstTail s beta p theta)).length = (List.ofFn theta).length := by simp
  rw [← dot_ofFn, ← dot_visited s hlen rfl, visited_worstTail, Scalar.dot_map_mul, tailSum]

variable [IsStrictOrderedRing K]

/-- No distribution of the envelope has a worse mean than a threshold says. -/
theorem InEnvelope.below_tailBound (hq : InEnvelope beta p q) (s : Sense)
    (v : Fin S → K) (t : K) :
    s.below (∑ i, q i * v i) (tailBound s beta (List.ofFn p) (List.ofFn v) t) := by
  have hcost : ∑ i, q i * (s.sign * v i - s.sign * t)
      = s.sign * ∑ i, q i * v i - (∑ i, q i) * (s.sign * t) := by
    rw [Finset.mul_sum, Finset.sum_mul, ← Finset.sum_sub_distrib]
    exact Finset.sum_congr rfl fun i _ => by ring
  have hexcess : ∀ i, q i * (s.sign * v i - s.sign * t)
      ≤ 1 / beta * (p i * max (s.sign * v i - s.sign * t) 0) := fun i =>
    calc q i * (s.sign * v i - s.sign * t)
        ≤ q i * max (s.sign * v i - s.sign * t) 0 :=
          mul_le_mul_of_nonneg_left (le_max_left _ _) (hq.nonneg i)
      _ ≤ p i / beta * max (s.sign * v i - s.sign * t) 0 :=
          mul_le_mul_of_nonneg_right (hq.le i) (le_max_right _ _)
      _ = _ := by ring
  have hsum := Finset.sum_le_sum fun i (_ : i ∈ Finset.univ) => hexcess i
  rw [hcost, hq.mass, one_mul, ← Finset.mul_sum] at hsum
  rw [Sense.below_iff, sign_mul_tailBound, tailBound, List.map_ofFn, sum_zipWith_ofFn]
  simp only [Function.comp_apply]
  linarith

/-- The tail is a distribution of the envelope. -/
theorem worstTail_inEnvelope (hbeta : 0 < beta) (hbeta1 : beta ≤ 1) (hp : ∀ i, 0 ≤ p i)
    (hmass : ∑ i, p i = 1) (s : Sense) (theta : Fin S → K) :
    InEnvelope beta p (worstTail s beta p theta) where
  nonneg i := by
    have hi : (i : Nat) < (List.ofFn theta).length := by simp
    refine div_nonneg ?_ hbeta.le
    rw [List.getD_eq_getElem _ _ (by simpa using turn_lt_length (s := s) hi)]
    refine tailShares_nonneg hbeta.le (visited_nonneg ?_ (by simp)) _ (List.getElem_mem _)
    simpa [List.mem_ofFn] using hp
  le i := by
    have hi : (i : Nat) < (List.ofFn theta).length := by simp
    have hshare := tailShares_le beta (visited s (List.ofFn theta) (List.ofFn p))
      (turn s (List.ofFn theta) i)
    rw [getD_visited_turn hi, List.getD_eq_getElem (List.ofFn p) _ (by simp),
      List.getElem_ofFn] at hshare
    exact div_le_div_of_nonneg_right hshare hbeta.le
  mass := by
    have hp' : ∀ a ∈ List.ofFn p, 0 ≤ a := List.forall_mem_ofFn_iff.mpr hp
    have hlen : (List.ofFn (worstTail s beta p theta)).length = (List.ofFn theta).length := by simp
    rw [← List.sum_ofFn, ← (visited_perm s hlen).sum_eq,
      visited_worstTail, List.sum_map_mul_left, List.map_id',
      sum_tailShares hbeta.le (visited_nonneg hp' (by simp)),
      (visited_perm s (by simp)).sum_eq, List.sum_ofFn, hmass, min_eq_left hbeta1,
      one_div_mul_cancel hbeta.ne']

/-- No distribution of the envelope has a worse mean than the tail. -/
theorem InEnvelope.below_worstTail (hbeta : 0 < beta) (hbeta1 : beta ≤ 1) (hp : ∀ i, 0 ≤ p i)
    (hmass : ∑ i, p i = 1) (hq : InEnvelope beta p q) (s : Sense) (theta : Fin S → K) :
    s.below (∑ i, q i * theta i) (∑ i, worstTail s beta p theta i * theta i) := by
  have hp' : ∀ a ∈ List.ofFn p, 0 ≤ a := List.forall_mem_ofFn_iff.mpr hp
  have hlen : (List.ofFn p).length = (List.ofFn theta).length := by simp
  obtain ⟨t, ht⟩ := (tailSum_isBest (s := s) hp' hlen hbeta (by rwa [List.sum_ofFn, hmass])).1
  rw [sum_worstTail_mul, ← ht]
  exact hq.below_tailBound s theta t

/-- Of equals the tail takes the earlier one whole before it takes a later one. -/
theorem worstTail_full_before (hbeta : 0 < beta) (hp : ∀ i, 0 ≤ p i) {i j : Fin S}
    (hij : i < j) (heq : theta i = theta j) (hj : 0 < worstTail s beta p theta j) :
    worstTail s beta p theta i = p i / beta := by
  have hp' : ∀ a ∈ List.ofFn p, 0 ≤ a := List.forall_mem_ofFn_iff.mpr hp
  have hturns : turn s (List.ofFn theta) i < turn s (List.ofFn theta) j :=
    turn_lt_turn hij (by simp) (by simp [heq])
  have hvisited : ∀ a ∈ visited s (List.ofFn theta) (List.ofFn p), 0 ≤ a :=
    visited_nonneg hp' (by simp)
  have hshare := tailShares_full_before hvisited hturns
    ((div_pos_iff_of_pos_right hbeta).mp hj)
  rw [worstTail, hshare, getD_visited_turn (by simp)]
  simp

end Risk

/-! ## The written weights -/

section Weights

variable [IsStrictOrderedRing K] {S : Nat} {s : Sense} {beta : K} {p theta : Fin S → K}

/-- The weights mix the probabilities with the worst tail; the rest of the buffer stays. -/
theorem reweight_ofFn (hbeta : 0 < beta) (hp : ∀ i, 0 ≤ p i) (s : Sense) (theta : Fin S → K)
    (lambda : K) {buffer : List K} (hbuffer : S ≤ buffer.length) :
    reweight buffer (.ok s) (List.ofFn p) (List.ofFn theta) lambda beta
      = .ok ((List.ofFn fun i => lambda * p i + (1 - lambda) * Risk.worstTail s beta p theta i)
          ++ buffer.drop S) := by
  have hp' : ∀ a ∈ List.ofFn p, 0 ≤ a := List.forall_mem_ofFn_iff.mpr hp
  have hsame : (List.ofFn p).length = (List.ofFn theta).length := by simp
  obtain ⟨filled, hrun, hlen, hrest, hfilled⟩ := reweight_exact s lambda hp' hsame
    (by simpa using hbuffer) hbeta.le
  rw [List.length_ofFn] at hrest
  rw [hrun, ← List.take_append_drop S filled, hrest]
  congr 2
  refine List.ext_getElem (by simpa [hlen] using hbuffer) fun i h₁ h₂ => ?_
  have hi : i < (List.ofFn theta).length := by simpa using h₂
  have hturn := turn_lt_length (s := s) hi
  have hprobability := getD_visited_turn (s := s) hi (List.ofFn p)
  have hwritten := congrArg (·.getD (turn s (List.ofFn theta) i) 0) hfilled
  simp only [getD_visited_turn hi] at hwritten
  rw [List.getD_eq_getElem _ _ (by simpa using hturn), List.getD_eq_getElem _ _ (by simpa using hi)]
    at hprobability
  rw [List.getD_eq_getElem _ _ (by simp at hi; omega),
    List.getD_eq_getElem _ _ (by simpa using hturn), List.getElem_zipWith, hprobability] at hwritten
  rw [List.getElem_take, hwritten, List.getElem_ofFn, List.getElem_ofFn, Risk.worstTail,
    List.getD_eq_getElem _ _ (by simpa using hturn)]
  ring

/-- For every distribution and every objective values there is a worst distribution of the
risk envelope, which fills the earlier of equal scenarios first, and the weights that are
written mix the probabilities with it.  They form a distribution themselves, and the rest of
the buffer stays as it is. -/
theorem reweight_mixes_worst_tail (s : Sense) (p theta : Fin S → K) (hp : ∀ i, 0 ≤ p i)
    (hmass : ∑ i, p i = 1) (hbeta : 0 < beta) (hbeta1 : beta ≤ 1) :
    ∃ q, Risk.InEnvelope beta p q ∧
      (∀ q', Risk.InEnvelope beta p q' →
        s.below (∑ i, q' i * theta i) (∑ i, q i * theta i)) ∧
      (∀ i j, i < j → theta i = theta j → 0 < q j → q i = p i / beta) ∧
      ∀ lambda, 0 ≤ lambda → lambda ≤ 1 → ∀ buffer : List K, S ≤ buffer.length →
        ∃ w : Fin S → K,
          reweight buffer (.ok s) (List.ofFn p) (List.ofFn theta) lambda beta
            = .ok (List.ofFn w ++ buffer.drop S) ∧
          (∀ i, w i = lambda * p i + (1 - lambda) * q i) ∧ (∀ i, 0 ≤ w i) ∧ ∑ i, w i = 1 := by
  have hq := Risk.worstTail_inEnvelope hbeta hbeta1 hp hmass s theta
  refine ⟨Risk.worstTail s beta p theta, hq, fun q' hq' => ?_, fun i j hij heq hj => ?_,
    fun lambda hlambda hlambda1 buffer hbuffer =>
      ⟨_, reweight_ofFn hbeta hp s theta lambda hbuffer, fun i => rfl, fun i => ?_, ?_⟩⟩
  · exact hq'.below_worstTail hbeta hbeta1 hp hmass s theta
  · exact Risk.worstTail_full_before hbeta hp hij heq hj
  · exact add_nonneg (mul_nonneg hlambda (hp i))
      (mul_nonneg (sub_nonneg.mpr hlambda1) (hq.nonneg i))
  · rw [Finset.sum_add_distrib, ← Finset.mul_sum, ← Finset.mul_sum, hmass, hq.mass]
    ring

/-- Of two equally bad scenarios the first one gives the tail all it has if the second one
gives anything; what follows the three weights in the buffer stays. -/
theorem reweight_mixes_tied_tail : ∃ q w : Fin 3 → ℚ,
    Risk.InEnvelope (1 / 2) ![1 / 4, 1 / 2, 1 / 4] q ∧ (0 < q 1 → q 0 = 1 / 4 / (1 / 2)) ∧
      reweight [0, 0, 0, 7] (.ok .min) (List.ofFn ![1 / 4, 1 / 2, 1 / 4]) (List.ofFn ![5, 5, 3])
        (1 / 2) (1 / 2) = .ok (List.ofFn w ++ [7]) ∧ ∑ i, w i = 1 := by
  obtain ⟨q, hq, -, htie, hweights⟩ := reweight_mixes_worst_tail (K := ℚ) .min
    ![1 / 4, 1 / 2, 1 / 4] ![5, 5, 3] (by decide +kernel) (by decide +kernel)
    (show 0 < 1 / 2 by norm_num) (by norm_num)
  obtain ⟨w, hrun, -, -, hsum⟩ := hweights (1 / 2) (by norm_num) (by norm_num) [0, 0, 0, 7]
    (by simp)
  exact ⟨q, w, hq, htie 0 1 (by decide) rfl, hrun, hsum⟩

end Weights

end Multistage
