/-
Multistage.Proofs.Random.Sampling — which index a number selects.

The cumulative sums of weights cut the range from zero to the total mass into one interval
per index, as long as the index is heavy and closed on the left.  Bisection finds the
boundary between the sums that a number reaches and those that it does not
(`bisect_spec`), so a number in `[0, 1)` selects the index into whose interval it falls
(`indexOf_eq_some_iff`).  An interval of an index without weight is empty, wherever it
stands, and the correction for an index beyond the vector is never needed.
-/
import Mathlib.Order.Interval.Set.Defs
import Multistage.Proofs.Exact
import Multistage.Proofs.Transition
import Multistage.Random.Sampling

namespace Multistage

/-! ## Bisection -/

/-- Where a test that holds at a place holds at all earlier ones, bisection finds the first
place where it does not. -/
theorem bisect_spec {holds : Nat → Bool} {low high : Nat} (hle : low ≤ high)
    (hearlier : ∀ j k, j ≤ k → k < high → holds k = true → holds j = true) :
    bisect holds low high ≤ high ∧
      (∀ k, low ≤ k → k < bisect holds low high → holds k = true) ∧
      ∀ k, bisect holds low high ≤ k → k < high → holds k = false := by
  induction low, high using bisect.induct holds with
  | case1 low high hlt middle hmiddle ih =>
    -- the boundary is after the middle
    obtain ⟨hhigh, hbefore, hafter⟩ := ih (by omega) hearlier
    rw [bisect, if_pos hlt, if_pos hmiddle]
    refine ⟨hhigh, fun k hk hlater => ?_, hafter⟩
    rcases Nat.lt_or_ge middle k with h | h
    · exact hbefore k h hlater
    · exact hearlier k middle h (by omega) hmiddle
  | case2 low high hlt middle hmiddle ih =>
    -- the boundary is at the middle or before
    obtain ⟨hhigh, hbefore, hafter⟩ :=
      ih (by omega) fun j k hjk hk => hearlier j k hjk (by omega)
    have hmiddle_le : middle ≤ high := by omega
    rw [bisect, if_pos hlt, if_neg hmiddle]
    refine ⟨hhigh.trans hmiddle_le, hbefore, fun k hk hkhigh => ?_⟩
    rcases Nat.lt_or_ge k middle with h | h
    · exact hafter k hk h
    · by_contra hholds
      exact hmiddle (hearlier middle k h hkhigh (by simpa using hholds))
  | case3 low high hlt =>
    rw [bisect, if_neg hlt]
    exact ⟨hle, fun k hk hlater => by omega, fun k hk hkhigh => by omega⟩

/-! ## Cumulative sums -/

section Sums

variable {K : Type} [Field K]

/-- The mass of the entries before an index. -/
def massBefore (p : List K) (k : Nat) : K := (p.take k).sum

@[simp] theorem massBefore_zero (p : List K) : massBefore p 0 = 0 := by
  simp [massBefore]

theorem massBefore_succ {p : List K} {k : Nat} {a : K} (h : p[k]? = some a) :
    massBefore p (k + 1) = massBefore p k + a := by
  obtain ⟨hk, rfl⟩ := List.getElem?_eq_some_iff.mp h
  exact List.sum_take_succ p k hk

theorem massBefore_of_le {p : List K} {k : Nat} (h : p.length ≤ k) : massBefore p k = p.sum := by
  rw [massBefore, List.take_of_length_le h]

variable [LinearOrder K]

theorem getElem?_runningSums (sum : K) (p : List K) (k : Nat) (h : k < p.length) :
    (runningSums sum p)[k]? = some (sum + massBefore p (k + 1)) := by
  induction p generalizing sum k with
  | nil => simp at h
  | cons a p ih =>
    cases k with
    | zero => simp [runningSums, massBefore]
    | succ k =>
      rw [runningSums, List.getElem?_cons_succ, ih (sum + a) k (by simpa using h), add_assoc]
      simp [massBefore]

@[simp] theorem length_runningSums (sum : K) (p : List K) :
    (runningSums sum p).length = p.length := by
  induction p generalizing sum with
  | nil => rfl
  | cons a p ih => simp [runningSums, ih]

@[simp] theorem length_cumulative (p : List K) : (cumulative p).length = p.length := by
  cases p <;> simp [cumulative]

theorem getElem?_cumulative {p : List K} {k : Nat} (h : k < p.length) :
    (cumulative p)[k]? = some (massBefore p (k + 1)) := by
  cases p with
  | nil => simp at h
  | cons a p =>
    cases k with
    | zero => simp [cumulative, massBefore]
    | succ k =>
      rw [cumulative, List.getElem?_cons_succ, getElem?_runningSums a p k (by simpa using h)]
      simp [massBefore]

theorem getLast?_cumulative {p : List K} (h : p ≠ []) : (cumulative p).getLast? = some p.sum := by
  have hpos : 0 < p.length := List.length_pos_of_ne_nil h
  rw [List.getLast?_eq_getElem?, length_cumulative, getElem?_cumulative (by omega),
    massBefore_of_le (by omega)]

/-! ## The index of a number -/

/-- Weights that are not negative, some of them positive. -/
structure HasMass (p : List K) : Prop where
  nonneg : ∀ a ∈ p, 0 ≤ a
  mass : 0 < p.sum

theorem HasMass.ne_nil {p : List K} (hp : HasMass p) : p ≠ [] := by
  rintro rfl
  exact absurd hp.mass (by simp)

/-- Whether a number falls into the interval of an index. -/
def FallsInto (p : List K) (u : K) (k : Nat) : Prop :=
  massBefore p k ≤ u * p.sum ∧ u * p.sum < massBefore p (k + 1)

variable [IsStrictOrderedRing K] {p : List K} {u : K}

theorem massBefore_mono (hp : ∀ a ∈ p, 0 ≤ a) {j k : Nat} (h : j ≤ k) :
    massBefore p j ≤ massBefore p k :=
  (List.take_sublist_take_left h).sum_le_sum fun a ha => hp a (List.mem_of_mem_take ha)

/-- The interval of an index ends after it starts only if the index has weight. -/
theorem FallsInto.exists_pos {k : Nat} (h : FallsInto p u k) : ∃ a, p[k]? = some a ∧ 0 < a := by
  have hlt := lt_of_le_of_lt h.1 h.2
  cases hk : p[k]? with
  | none =>
    rw [List.getElem?_eq_none_iff] at hk
    rw [massBefore_of_le hk, massBefore_of_le (Nat.le_succ_of_le hk)] at hlt
    exact absurd hlt (lt_irrefl _)
  | some a =>
    rw [massBefore_succ hk] at hlt
    exact ⟨a, rfl, (lt_add_iff_pos_right _).mp hlt⟩

/-- No number falls into two intervals. -/
theorem FallsInto.unique (hp : HasMass p) {j k : Nat} (hj : FallsInto p u j)
    (hk : FallsInto p u k) : j = k := by
  have hnot : ∀ {j k : Nat}, FallsInto p u j → FallsInto p u k → ¬j < k := fun hj hk hlt =>
    absurd (hj.2.trans_le ((massBefore_mono hp.nonneg hlt).trans hk.1)) (lt_irrefl _)
  exact le_antisymm (Nat.le_of_not_lt (hnot hk hj)) (Nat.le_of_not_lt (hnot hj hk))

/-- The number of cumulative sums that a number reaches is the index into whose interval it
falls. -/
theorem indexOf_spec (hp : HasMass p) (hu0 : 0 ≤ u) (hu1 : u < 1) :
    ∃ k, indexOf p u = some k ∧ FallsInto p u k := by
  set target := u * p.sum with htarget
  let reached (k : Nat) : Bool := (cumulative p)[k]?.elim false fun s => !Scalar.precedes target s
  have hreached : ∀ k, k < p.length → (reached k = true ↔ massBefore p (k + 1) ≤ target) := by
    intro k hk
    simp [reached, getElem?_cumulative hk]
  have hearlier : ∀ j k, j ≤ k → k < p.length → reached k = true → reached j = true := by
    intro j k hjk hk h
    rw [hreached k hk] at h
    rw [hreached j (by omega)]
    exact (massBefore_mono hp.nonneg (by omega)).trans h
  obtain ⟨hle, hbefore, hafter⟩ := bisect_spec (Nat.zero_le p.length) hearlier
  have hpos : 0 < p.length := List.length_pos_of_ne_nil hp.ne_nil
  -- the last sum is the whole mass, which is not reached
  have hlast : reached (p.length - 1) = false := by
    rw [Bool.eq_false_iff, Ne, hreached _ (by omega), massBefore_of_le (by omega), not_le]
    simpa using mul_lt_mul_of_pos_right hu1 hp.mass
  have hlt : bisect reached 0 p.length < p.length := by
    by_contra hnot
    have := hbefore (p.length - 1) (Nat.zero_le _) (by omega)
    rw [hlast] at this
    cases this
  refine ⟨bisect reached 0 p.length, ?_, ?_, ?_⟩
  · have hsearch : indexOf p u = some (Nat.min (bisect reached 0 p.length) (p.length - 1)) := by
      unfold indexOf
      simp only [List.back?_toArray, getLast?_cumulative hp.ne_nil, List.getElem?_toArray,
        List.size_toArray, length_cumulative]
      congr 3
      funext k
      cases hsum : (cumulative p)[k]? with
      | none => simp [reached, hsum]
      | some s => simp [reached, hsum, target]
    rw [hsearch]
    exact congrArg some (Nat.min_eq_left (Nat.le_sub_one_of_lt hlt))
  · rcases Nat.eq_zero_or_pos (bisect reached 0 p.length) with h | h
    · rw [h, massBefore_zero]
      exact mul_nonneg hu0 hp.mass.le
    · obtain ⟨k, hk⟩ := Nat.exists_eq_succ_of_ne_zero h.ne'
      rw [hk] at hbefore hlt ⊢
      exact (hreached k (by omega)).mp (hbefore k (Nat.zero_le k) (Nat.lt_succ_self k))
  · have hnot := hafter _ le_rfl hlt
    rwa [Bool.eq_false_iff, Ne, hreached _ hlt, not_le] at hnot

theorem indexOf_eq_some_iff (hp : HasMass p) (hu0 : 0 ≤ u) (hu1 : u < 1) {k : Nat} :
    indexOf p u = some k ↔ FallsInto p u k := by
  obtain ⟨j, hj, hfalls⟩ := indexOf_spec hp hu0 hu1
  rw [hj, Option.some.injEq]
  exact ⟨fun h => h ▸ hfalls, fun h => hfalls.unique hp h⟩

/-- The numbers that select an index form an interval, as long as the share of the index in
the mass. -/
theorem setOf_indexOf (hp : HasMass p) {k : Nat} {a : K} (hk : p[k]? = some a) :
    {u | 0 ≤ u ∧ u < 1 ∧ indexOf p u = some k}
      = Set.Ico (massBefore p k / p.sum) (massBefore p k / p.sum + a / p.sum) := by
  have hstart : 0 ≤ massBefore p k := by
    simpa using massBefore_mono hp.nonneg (Nat.zero_le k)
  have hend : massBefore p (k + 1) ≤ p.sum := by
    rw [← massBefore_of_le (p := p) le_rfl]
    exact massBefore_mono hp.nonneg (List.getElem?_eq_some_iff.mp hk).1
  ext u
  rw [Set.mem_ofPred_eq, Set.mem_Ico, ← add_div, ← massBefore_succ hk, div_le_iff₀ hp.mass,
    lt_div_iff₀ hp.mass]
  constructor
  · rintro ⟨hu0, hu1, h⟩
    exact (indexOf_eq_some_iff hp hu0 hu1).mp h
  · intro h
    have hu0 : 0 ≤ u := nonneg_of_mul_nonneg_left (hstart.trans h.1) hp.mass
    have hu1 : u < 1 := by
      have hlt := h.2.trans_le hend
      exact (mul_lt_iff_lt_one_left hp.mass).mp hlt
    exact ⟨hu0, hu1, (indexOf_eq_some_iff hp hu0 hu1).mpr h⟩

end Sums

/-! ## Draws -/

section Draws

variable {α : Type} [Scalar α]

/-- Drawing an index takes one number of the stream. -/
theorem sampleIndex_eq_ok {weights : List α} {d d' : Draws α} {k : Nat} :
    (sampleIndex weights).perform d = (.ok k, d')
      ↔ indexOf weights (d.sequence d.position) = some k ∧
        d' = { d with position := d.position + 1 } := by
  unfold sampleIndex Draws.next
  simp only [bind_assoc, pure_bind]
  rw [Transition.perform_bind_ok (Transition.perform_get d),
    Transition.perform_bind_ok (Transition.perform_set d _)]
  cases indexOf weights (d.sequence d.position) with
  | none => simp
  | some j =>
    rw [Transition.perform_pure, Prod.mk.injEq, Except.ok.injEq, Option.some.injEq]
    exact and_congr_right fun _ => eq_comm

end Draws

end Multistage
