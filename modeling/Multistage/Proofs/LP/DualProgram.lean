/-
Multistage.Proofs.LP.DualProgram — optimal marginals are recovered as optimal duals.

A row with two limits has two marginals in the split program, but one dual.  Of all
marginals with the same duals, those that leave a zero on one of the two sides have the
value that the duals have in the dual program of the program itself
(`Program.scattered`, `Program.dualValue_scattered`).  Marginals that solve the dual of
the split program may have a larger value than these, but then their reflection has one
that is larger still.  So optimal marginals are worth what their duals are worth, and
the duals are optimal (`Program.IsDualOptimum.of_split`).  Nothing is assumed of the
order of the two limits of a row.
-/
import Multistage.Proofs.LP.Recovery
import Mathlib.Algebra.Order.Group.MinMax
import Mathlib.Tactic.NormNum

namespace Multistage.LP

section Exact

variable {K : Type} [Field K] [LinearOrder K]

/-! ## The dual program -/

/-- Duals of a program with two-sided rows: one number per row, and the marginals of the
lower and the upper limits of the columns. -/
structure Duals (α : Type) where
  rows : List α
  lower : List α
  upper : List α

/-- What a dual leaves to the upper side of its row. -/
def upperShare (a : K) : K := min a 0

/-- What a dual leaves to the lower side of its row, which is negated. -/
def lowerShare (a : K) : K := min (-a) 0

/-- What a range adds to the value of a dual: a positive dual weighs the lower limit, and
a negative one the upper limit. -/
def Range.dualValue (r : Range K) (a : K) : K :=
  max a 0 * r.lower.value?.getD 0 + upperShare a * r.upper.value?.getD 0

namespace Program

/-- The solutions of the dual program: a row without a lower limit has no positive dual, a
row without an upper limit no negative one, the marginals of columns have the signs of
their sides, and all of them add up to the costs. -/
structure IsDual (p : Program K) (d : Duals K) : Prop where
  rowsLength : d.rows.length = p.rows.length
  lowerLength : d.lower.length = p.columnRanges.length
  upperLength : d.upper.length = p.columnRanges.length
  rowsLower : ∀ e ∈ p.rowRanges.zip d.rows, e.1.lower.value? = none → e.2 ≤ 0
  rowsUpper : ∀ e ∈ p.rowRanges.zip d.rows, e.1.upper.value? = none → 0 ≤ e.2
  lower : ∀ a ∈ d.lower, 0 ≤ a
  upper : ∀ a ∈ d.upper, a ≤ 0
  lowerAbsent : ∀ e ∈ p.columnRanges.zip d.lower, e.1.lower.value? = none → e.2 = 0
  upperAbsent : ∀ e ∈ p.columnRanges.zip d.upper, e.1.upper.value? = none → e.2 = 0
  stationary : p.costs = List.zipWith (· + ·) (transposeMul p.costs.length p.rows d.rows)
    (List.zipWith (· + ·) d.lower d.upper)

/-- The value of duals. -/
def dualValue (p : Program K) (d : Duals K) : K :=
  (List.zipWith Range.dualValue p.rowRanges d.rows).sum
    + (limitSum (p.columnRanges.map fun r => r.lower.value?) d.lower
      + limitSum (p.columnRanges.map fun r => r.upper.value?) d.upper)

/-- The optima of the dual program: no solution has a larger value. -/
structure IsDualOptimum (p : Program K) (d : Duals K) : Prop where
  solution : p.IsDual d
  maximal : ∀ d', p.IsDual d' → p.dualValue d' ≤ p.dualValue d

/-- The duals that are recovered from marginals of the split program. -/
def recovered (p : Program K) (m : Marginals K) : Duals K :=
  ⟨p.recoverDuals m.equations m.inequalities, m.lower, m.upper⟩

/-- Marginals of the split program that have the same value as duals of the program: of
the two sides of a row only the one that its dual weighs has a marginal. -/
def scattered (p : Program K) (d : Duals K) : Marginals K where
  equations := pick Range.equation? p.rowRanges d.rows
  inequalities := (pick Range.upperSide? p.rowRanges d.rows).map upperShare
    ++ (pick Range.lowerSide? p.rowRanges d.rows).map lowerShare
  lower := d.lower
  upper := d.upper

end Program

/-! ## One row at a time -/

section Sides

theorem Range.equation?_eq_none {r : Range K}
    (h : r.lower.value? = none ∨ r.upper.value? = none) : r.equation? = none := by
  obtain ⟨lower, upper⟩ := r
  cases lower <;> cases upper <;> first | rfl | simp [Limit.value?] at h

/-- A row is an equation without sides, or its sides are its limits. -/
theorem Range.sides_cases (r : Range K) :
    (∃ b, r.equation? = some b ∧ r.upperSide? = none ∧ r.lowerSide? = none) ∨
      r.equation? = none ∧ r.upperSide? = r.upper.value? ∧ r.lowerSide? = r.lower.value? := by
  unfold Range.upperSide? Range.lowerSide?
  cases r.equation? with
  | some b => exact .inl ⟨b, rfl, rfl, rfl⟩
  | none => exact .inr ⟨rfl, rfl, rfl⟩

theorem takeSide_pick (side? : Range K → Option K) (r : Range K) (ranges : List (Range K)) (a : K)
    (v : List K) :
    takeSide (side? r) (pick side? (r :: ranges) (a :: v))
      = (if (side? r).isSome then a else 0, pick side? ranges v) := by
  rw [pick_cons]
  cases side? r <;> rfl

theorem takeSide_map {f : K → K} (hf : f 0 = 0) (side : Option K) (ms : List K) :
    takeSide side (ms.map f) = (f (takeSide side ms).1, (takeSide side ms).2.map f) := by
  cases side <;> cases ms <;> simp [takeSide, hf]

theorem takeSide_zipWith {f : K → K → K} (hf : f 0 0 = 0) (side : Option K) {ms cs : List K}
    (h : ms.length = cs.length) :
    takeSide side (List.zipWith f ms cs)
      = (f (takeSide side ms).1 (takeSide side cs).1,
          List.zipWith f (takeSide side ms).2 (takeSide side cs).2) := by
  cases side <;> cases ms <;> cases cs <;> simp_all [takeSide]

theorem length_takeSide (side : Option K) (ms : List K) :
    (takeSide side ms).2.length = ms.length - if side.isSome then 1 else 0 := by
  cases side <;> cases ms <;> simp [takeSide]

theorem takeSide_nonpos {ms : List K} (h : ∀ m ∈ ms, m ≤ 0) (side : Option K) :
    (takeSide side ms).1 ≤ 0 ∧ ∀ m ∈ (takeSide side ms).2, m ≤ 0 := by
  cases side <;> cases ms <;> simp_all [takeSide]

theorem dot_pick_limits (side? : Range K → Option K) (f g : K → K) (r : Range K)
    (ranges : List (Range K)) (a : K) (v : List K) :
    Scalar.dot ((pick side? (r :: ranges) (a :: v)).map f)
        (((r :: ranges).filterMap side?).map g)
      = (side? r).elim 0 (fun b => f a * g b)
        + Scalar.dot ((pick side? ranges v).map f) ((ranges.filterMap side?).map g) := by
  rw [pick_cons, List.filterMap_cons]
  cases side? r <;> simp

/-- Marginals are at most some others, if this holds at the first row and after it. -/
theorem forall₂_le_pick_cons {side? : Range K → Option K} {f : K → K} {r : Range K}
    {ranges : List (Range K)} {a : K} {v ms : List K}
    (hms : ms.length = ((r :: ranges).filterMap side?).length)
    (hhead : (side? r).isSome → (takeSide (side? r) ms).1 ≤ f a)
    (hrest : List.Forall₂ (· ≤ ·) (takeSide (side? r) ms).2 ((pick side? ranges v).map f)) :
    List.Forall₂ (· ≤ ·) ms ((pick side? (r :: ranges) (a :: v)).map f) := by
  rw [pick_cons]
  rw [List.filterMap_cons] at hms
  cases h : side? r with
  | none =>
    rw [h] at hrest
    simpa [takeSide] using hrest
  | some b =>
    rw [h] at hms hhead hrest
    obtain _ | ⟨m, ms⟩ := ms
    · cases hms
    · exact .cons (hhead rfl) hrest

theorem upperShare_add_max (a : K) : upperShare a + max a 0 = a := by
  rw [upperShare, min_add_max, add_zero]

theorem upperShare_zero : upperShare (0 : K) = 0 := min_self 0

theorem lowerShare_zero : lowerShare (0 : K) = 0 := by
  rw [lowerShare, neg_zero, min_self]

variable [IsStrictOrderedRing K]

theorem lowerShare_eq (a : K) : lowerShare a = -max a 0 := by
  rw [lowerShare, ← min_neg_neg, neg_zero]

/-- A dual is recovered from what it leaves to the sides of its row. -/
theorem Range.recover_one (r : Range K) {a : K} (hlower : r.lower.value? = none → a ≤ 0)
    (hupper : r.upper.value? = none → 0 ≤ a) :
    (if r.equation?.isSome then a else 0)
        + ((if r.upperSide?.isSome then upperShare a else 0)
          - if r.lowerSide?.isSome then lowerShare a else 0) = a := by
  rcases r.sides_cases with ⟨b, heq, hu, hl⟩ | ⟨heq, hu, hl⟩
  · simp [heq, hu, hl]
  · rw [heq, hu, hl, lowerShare_eq]
    cases hlow : r.lower.value? <;> cases hup : r.upper.value?
    · simp [le_antisymm (hlower hlow) (hupper hup)]
    · simp [upperShare, hlower hlow]
    · simp [hupper hup]
    · simp [upperShare_add_max]

/-- What a range adds to the value of a dual is what its sides add. -/
theorem Range.dualValue_eq {r : Range K} (hspread : r.Spread) (a : K) :
    r.dualValue a = r.equation?.elim 0 (a * ·)
      + (r.upperSide?.elim 0 (upperShare a * ·)
        + r.lowerSide?.elim 0 fun l => lowerShare a * -l) := by
  unfold Range.dualValue
  rcases r.sides_cases with ⟨b, heq, hu, hl⟩ | ⟨heq, hu, hl⟩
  · obtain ⟨hlower, hupper⟩ := (Range.equation?_eq_some hspread).mp heq
    rw [heq, hu, hl, hlower, hupper]
    simp only [Limit.value?, Option.getD_some, Option.elim, add_zero]
    rw [← add_mul, add_comm, upperShare_add_max]
  · rw [heq, hu, hl, lowerShare_eq]
    cases r.lower.value? <;> cases r.upper.value? <;> simp [add_comm]

end Sides

/-! ## All rows -/

section Rows

variable [IsStrictOrderedRing K]

/-- Duals are recovered from the marginals that they leave to the sides. -/
theorem recover_pick {ranges : List (Range K)} {y : List K} (hlen : y.length = ranges.length)
    (hlower : ∀ e ∈ ranges.zip y, e.1.lower.value? = none → e.2 ≤ 0)
    (hupper : ∀ e ∈ ranges.zip y, e.1.upper.value? = none → 0 ≤ e.2) :
    recover ranges (pick Range.equation? ranges y)
      ((pick Range.upperSide? ranges y).map upperShare)
      ((pick Range.lowerSide? ranges y).map lowerShare) = y := by
  induction ranges generalizing y with
  | nil => exact (List.length_eq_zero_iff.mp hlen).symm
  | cons r ranges ih =>
    obtain _ | ⟨a, y⟩ := y
    · cases hlen
    rw [List.zip_cons_cons, List.forall_mem_cons] at hlower hupper
    rw [recover_cons, takeSide_map upperShare_zero, takeSide_map lowerShare_zero, takeSide_pick,
      takeSide_pick, takeSide_pick]
    dsimp only
    rw [ih (Nat.succ.inj hlen) hlower.2 hupper.2]
    congr 1
    rw [apply_ite upperShare, apply_ite lowerShare, upperShare_zero, lowerShare_zero]
    exact r.recover_one hlower.1 hupper.1

/-- Duals have the value of the marginals that they leave to the sides. -/
theorem sum_dualValue {ranges : List (Range K)} (hspread : ∀ r ∈ ranges, r.Spread) (y : List K) :
    (List.zipWith Range.dualValue ranges y).sum
      = Scalar.dot (pick Range.equation? ranges y) (ranges.filterMap Range.equation?)
        + (Scalar.dot ((pick Range.upperSide? ranges y).map upperShare)
              (ranges.filterMap Range.upperSide?)
          + Scalar.dot ((pick Range.lowerSide? ranges y).map lowerShare)
              ((ranges.filterMap Range.lowerSide?).map (- ·))) := by
  induction ranges generalizing y with
  | nil => simp
  | cons r ranges ih =>
    obtain _ | ⟨a, y⟩ := y
    · simp [pick]
    have heq := dot_pick_limits Range.equation? id id r ranges a y
    have hup := dot_pick_limits Range.upperSide? upperShare id r ranges a y
    have hlow := dot_pick_limits Range.lowerSide? lowerShare (- ·) r ranges a y
    simp only [List.map_id, id] at heq hup
    rw [heq, hup, hlow, List.zipWith_cons_cons, List.sum_cons,
      ih (fun r hr => hspread r (by simp [hr])), Range.dualValue_eq (hspread r (by simp))]
    ring

/-- Recovered duals have the signs of the limits that their rows have. -/
theorem recover_signs (ranges : List (Range K)) (eqs : List K) {ups lows : List K}
    (hups : ∀ m ∈ ups, m ≤ 0) (hlows : ∀ m ∈ lows, m ≤ 0) :
    ∀ e ∈ ranges.zip (recover ranges eqs ups lows),
      (e.1.lower.value? = none → e.2 ≤ 0) ∧ (e.1.upper.value? = none → 0 ≤ e.2) := by
  induction ranges generalizing eqs ups lows with
  | nil => simp
  | cons r ranges ih =>
    obtain ⟨hup, hups⟩ := takeSide_nonpos hups r.upperSide?
    obtain ⟨hlow, hlows⟩ := takeSide_nonpos hlows r.lowerSide?
    rw [recover_cons, List.zip_cons_cons, List.forall_mem_cons]
    refine ⟨⟨fun h => ?_, fun h => ?_⟩, ih _ hups hlows⟩
    · have heq := Range.equation?_eq_none (.inl h)
      have hl : r.lowerSide? = none := by rw [Range.lowerSide?, heq, h]
      rw [heq, hl]
      simpa [takeSide] using hup
    · have heq := Range.equation?_eq_none (.inr h)
      have hu : r.upperSide? = none := by rw [Range.upperSide?, heq, h]
      rw [heq, hu]
      simpa [takeSide] using hlow

/-- What recovered duals leave to the sides is no less than the marginals that they are
recovered from. -/
theorem le_pick_recover (ranges : List (Range K)) (eqs : List K) {ups lows : List K}
    (hups : ∀ m ∈ ups, m ≤ 0) (hlows : ∀ m ∈ lows, m ≤ 0)
    (hupsLength : ups.length = (ranges.filterMap Range.upperSide?).length)
    (hlowsLength : lows.length = (ranges.filterMap Range.lowerSide?).length) :
    List.Forall₂ (· ≤ ·) ups
        ((pick Range.upperSide? ranges (recover ranges eqs ups lows)).map upperShare) ∧
      List.Forall₂ (· ≤ ·) lows
        ((pick Range.lowerSide? ranges (recover ranges eqs ups lows)).map lowerShare) := by
  induction ranges generalizing eqs ups lows with
  | nil =>
    rw [List.length_eq_zero_iff.mp hupsLength, List.length_eq_zero_iff.mp hlowsLength]
    exact ⟨.nil, .nil⟩
  | cons r ranges ih =>
    obtain ⟨hup, hups'⟩ := takeSide_nonpos hups r.upperSide?
    obtain ⟨hlow, hlows'⟩ := takeSide_nonpos hlows r.lowerSide?
    have hcount : ∀ (side? : Range K → Option K) (ms : List K),
        ms.length = ((r :: ranges).filterMap side?).length →
          (takeSide (side? r) ms).2.length = (ranges.filterMap side?).length := by
      intro side? ms h
      rw [length_takeSide, h, List.filterMap_cons]
      cases side? r <;> simp
    have hequation : r.upperSide?.isSome ∨ r.lowerSide?.isSome →
        (takeSide r.equation? eqs).1 = 0 := by
      rcases r.sides_cases with ⟨b, -, hu, hl⟩ | ⟨heq, -, -⟩
      · simp [hu, hl]
      · simp [heq, takeSide]
    obtain ⟨hrestUp, hrestLow⟩ := ih (takeSide r.equation? eqs).2 hups' hlows'
      (hcount _ _ hupsLength) (hcount _ _ hlowsLength)
    rw [recover_cons]
    refine ⟨forall₂_le_pick_cons hupsLength (fun h => le_min ?_ hup) hrestUp,
      forall₂_le_pick_cons hlowsLength (fun h => le_min ?_ hlow) hrestLow⟩
    · rw [hequation (.inl h)]
      linarith
    · rw [hequation (.inr h)]
      linarith

end Rows

/-! ## Solutions of the dual programs -/

namespace Program

variable [IsStrictOrderedRing K] {p : Program K} {d : Duals K} {m : Marginals K}

omit [IsStrictOrderedRing K] in
/-- Marginals add up to the costs if the duals that are recovered from them do. -/
theorem split_stationary_iff (hfits : p.Fits)
    (hineqs : m.inequalities.length = p.split.inequalities.length) :
    p.split.costs =
        List.zipWith (· + ·)
          (List.zipWith (· + ·) (combine p.split.columns.length m.equations p.split.equations)
            (combine p.split.columns.length m.inequalities p.split.inequalities))
          (List.zipWith (· + ·) m.lower m.upper)
      ↔ p.costs = List.zipWith (· + ·) (transposeMul p.costs.length p.rows (p.recovered m).rows)
          (List.zipWith (· + ·) m.lower m.upper) := by
  have hcolumns : p.split.columns.length = p.costs.length :=
    (List.length_map _).trans hfits.columns
  obtain ⟨hequations, hinequalities⟩ := length_split_rows hfits.width
  rw [hcolumns, combine_eq_transposeMul hequations, combine_eq_transposeMul hinequalities,
    ← transposeMul_recoverDuals _ _ hineqs]
  rfl

theorem recovered_scattered (hfits : p.Fits) (hd : p.IsDual d) :
    p.recovered (p.scattered d) = d := by
  have hlen : d.rows.length = p.rowRanges.length := hd.rowsLength.trans hfits.ranges.symm
  have hups : ((pick Range.upperSide? p.rowRanges d.rows).map upperShare).length
      = (sides Range.upperSide? p.rows p.rowRanges).length := by
    rw [List.length_map, length_pick hlen, length_sides hfits.ranges.symm]
  have hrows : p.recoverDuals (p.scattered d).equations (p.scattered d).inequalities = d.rows := by
    rw [scattered, recoverDuals_append _ _ hups]
    exact recover_pick hlen hd.rowsLower hd.rowsUpper
  rw [recovered, hrows]
  rfl

omit [IsStrictOrderedRing K] in
theorem length_scattered (hfits : p.Fits) (hlen : d.rows.length = p.rows.length) :
    (p.scattered d).equations.length = p.split.equations.length ∧
      (p.scattered d).inequalities.length = p.split.inequalities.length := by
  have hlen' : d.rows.length = p.rowRanges.length := hlen.trans hfits.ranges.symm
  simp only [scattered, split, List.length_append, List.length_map, length_pick hlen',
    length_sides hfits.ranges.symm, and_self]

/-- Duals of the program have the value of marginals of the split program. -/
theorem dualValue_scattered (hfits : p.Fits) (hspread : ∀ r ∈ p.rowRanges, r.Spread)
    (hlen : d.rows.length = p.rows.length) :
    p.split.dualValue (p.scattered d) = p.dualValue d := by
  have hlen' : d.rows.length = p.rowRanges.length := hlen.trans hfits.ranges.symm
  have hlimits : p.split.inequalities.map Constraint.rhs
      = p.rowRanges.filterMap Range.upperSide?
        ++ (p.rowRanges.filterMap Range.lowerSide?).map (- ·) := by
    rw [← map_rhs_sides hfits.ranges.symm, ← map_rhs_sides hfits.ranges.symm]
    simp [split, Constraint.negate, Function.comp_def]
  have hups : ((pick Range.upperSide? p.rowRanges d.rows).map upperShare).length
      = (p.rowRanges.filterMap Range.upperSide?).length := by
    rw [List.length_map, length_pick hlen']
  have hequations : p.split.equations.map Constraint.rhs
      = p.rowRanges.filterMap Range.equation? := map_rhs_sides hfits.ranges.symm
  unfold Split.dualValue Program.dualValue
  rw [hlimits, hequations, sum_dualValue hspread, scattered, Scalar.dot_append hups]
  simp only [split, List.map_map, Function.comp_def]

/-- Duals that solve the dual program are marginals that solve the dual of the split
program. -/
theorem IsDual.scattered (hfits : p.Fits) (hd : p.IsDual d) :
    p.split.IsDual (p.scattered d) := by
  obtain ⟨heqs, hineqs⟩ := length_scattered hfits hd.rowsLength
  have hzip : ∀ ms : List K, p.split.columns.zip ms
      = (p.columnRanges.zip ms).map (Prod.map Range.bounds id) := by
    intro ms
    rw [← List.zip_map_left]
    rfl
  refine ⟨heqs, hineqs, hd.lowerLength.trans (List.length_map _).symm,
    hd.upperLength.trans (List.length_map _).symm, fun a ha => ?_, hd.lower, hd.upper,
    fun e he => ?_, fun e he => ?_, ?_⟩
  · rcases List.mem_append.mp ha with ha | ha
    · obtain ⟨b, -, rfl⟩ := List.mem_map.mp ha
      exact min_le_right _ _
    · obtain ⟨b, -, rfl⟩ := List.mem_map.mp ha
      exact min_le_right _ _
  · rw [hzip] at he
    obtain ⟨c, hc, rfl⟩ := List.mem_map.mp he
    exact hd.lowerAbsent c hc
  · rw [hzip] at he
    obtain ⟨c, hc, rfl⟩ := List.mem_map.mp he
    exact hd.upperAbsent c hc
  · rw [split_stationary_iff hfits hineqs, recovered_scattered hfits hd]
    exact hd.stationary

/-- Marginals that solve the dual of the split program are recovered as duals that solve
the dual program. -/
theorem IsDual.recovered (hfits : p.Fits) (hm : p.split.IsDual m) :
    p.IsDual (p.recovered m) := by
  obtain ⟨ups, lows, happend, hups, -⟩ := exists_sides hm.inequalityLength
  have hrows : (p.recovered m).rows = recover p.rowRanges m.equations ups lows := by
    rw [Program.recovered, happend]
    exact recoverDuals_append m.equations lows hups
  have hsigns := hm.inequality
  rw [happend, List.forall_mem_append] at hsigns
  have hrecovered := recover_signs p.rowRanges m.equations hsigns.1 hsigns.2
  rw [← hrows] at hrecovered
  have habsent : ∀ (ms : List K) (e : Range K × K), e ∈ p.columnRanges.zip ms →
      (e.1.bounds, e.2) ∈ p.split.columns.zip ms := by
    intro ms e he
    show _ ∈ (p.columnRanges.map Range.bounds).zip ms
    rw [List.zip_map_left]
    exact List.mem_map_of_mem he
  refine ⟨?_, hm.lowerLength.trans (List.length_map _), hm.upperLength.trans (List.length_map _),
    fun e he => (hrecovered e he).1, fun e he => (hrecovered e he).2, hm.lower, hm.upper,
    fun e he => hm.lowerAbsent _ (habsent _ e he), fun e he => hm.upperAbsent _ (habsent _ e he),
    (split_stationary_iff hfits hm.inequalityLength).mp hm.stationary⟩
  rw [hrows, length_recover, hfits.ranges]

end Program

/-! ## Optima of the dual programs -/

/-- The reflection of the second number in the first: as far from it, on the other side. -/
def reflected (a b : K) : K := 2 * a - b

/-- The reflection of marginals of rows in others. -/
def Marginals.reflected (m c : Marginals K) : Marginals K where
  equations := List.zipWith LP.reflected m.equations c.equations
  inequalities := List.zipWith LP.reflected m.inequalities c.inequalities
  lower := m.lower
  upper := m.upper

omit [LinearOrder K] in
@[simp] theorem reflected_zero : reflected (0 : K) 0 = 0 := by
  rw [reflected, mul_zero, sub_zero]

theorem dot_zipWith_reflected {as bs : List K} (h : as.length = bs.length) (cs : List K) :
    Scalar.dot (List.zipWith reflected as bs) cs = 2 * Scalar.dot as cs - Scalar.dot bs cs := by
  have hzip : List.zipWith reflected as bs = List.zipWith (· - ·) (as.map (2 * ·)) bs := by
    rw [List.zipWith_map_left]
    rfl
  rw [hzip, Scalar.dot_comm, Scalar.dot_zipWith_sub (by simpa using h), Scalar.dot_comm cs,
    Scalar.dot_map_mul, Scalar.dot_comm cs]

/-- Recovering is linear: reflected marginals have reflected duals. -/
theorem recover_reflected (ranges : List (Range K)) {eqs eqs' ups ups' lows lows' : List K}
    (heqs : eqs.length = eqs'.length) (hups : ups.length = ups'.length)
    (hlows : lows.length = lows'.length) :
    recover ranges (List.zipWith reflected eqs eqs') (List.zipWith reflected ups ups')
        (List.zipWith reflected lows lows')
      = List.zipWith reflected (recover ranges eqs ups lows) (recover ranges eqs' ups' lows') := by
  induction ranges generalizing eqs eqs' ups ups' lows lows' with
  | nil => rfl
  | cons r ranges ih =>
    have hcount : ∀ (side : Option K) {ms cs : List K}, ms.length = cs.length →
        (takeSide side ms).2.length = (takeSide side cs).2.length := by
      intro side ms cs h
      rw [length_takeSide, length_takeSide, h]
    rw [recover_cons, recover_cons, recover_cons, takeSide_zipWith reflected_zero _ heqs,
      takeSide_zipWith reflected_zero _ hups, takeSide_zipWith reflected_zero _ hlows,
      List.zipWith_cons_cons, ← ih (hcount _ heqs) (hcount _ hups) (hcount _ hlows)]
    congr 1
    unfold reflected
    ring

omit [LinearOrder K] in
theorem zipWith_reflected_self (as : List K) : List.zipWith reflected as as = as := by
  rw [List.zipWith_self]
  refine (List.map_congr_left fun a _ => ?_).trans (List.map_id as)
  rw [reflected, id]
  ring

theorem reflected_nonpos [IsStrictOrderedRing K] {as bs : List K}
    (hle : List.Forall₂ (· ≤ ·) as bs) (has : ∀ a ∈ as, a ≤ 0) :
    ∀ c ∈ List.zipWith reflected as bs, c ≤ 0 := by
  induction hle with
  | nil => simp
  | @cons a b _ _ hab _ ih =>
    rw [List.forall_mem_cons] at has
    rw [List.zipWith_cons_cons, List.forall_mem_cons]
    refine ⟨?_, ih has.2⟩
    have ha := has.1
    unfold reflected
    linarith

namespace Program

variable [IsStrictOrderedRing K] {p : Program K} {m c : Marginals K}

omit [IsStrictOrderedRing K] in
theorem recovered_reflected (hm : m.inequalities.length = p.split.inequalities.length)
    (hc : c.inequalities.length = p.split.inequalities.length)
    (heqs : m.equations.length = c.equations.length) :
    (p.recovered (m.reflected c)).rows
      = List.zipWith reflected (p.recovered m).rows (p.recovered c).rows := by
  obtain ⟨ups, lows, hmSides, hups, hlows⟩ := exists_sides hm
  obtain ⟨ups', lows', hcSides, hups', hlows'⟩ := exists_sides hc
  have hlen : ups.length = ups'.length := hups.trans hups'.symm
  have hzip : (List.zipWith reflected ups ups').length
      = (sides Range.upperSide? p.rows p.rowRanges).length := by
    rw [List.length_zipWith, ← hlen, Nat.min_self, hups]
  simp only [recovered, Marginals.reflected, hmSides, hcSides, List.zipWith_append hlen]
  rw [recoverDuals_append _ _ hups, recoverDuals_append _ _ hups', recoverDuals_append _ _ hzip,
    recover_reflected _ heqs hlen (hlows.trans hlows'.symm)]

/-- What the duals of a solution leave to the sides can be reflected in the solution. -/
theorem reflected_isDual (hfits : p.Fits) (hm : p.split.IsDual m) :
    p.split.IsDual (m.reflected (p.scattered (p.recovered m))) := by
  have hd := IsDual.recovered hfits hm
  have hc := hd.scattered hfits
  have heqs := hm.equationLength.trans hc.equationLength.symm
  have hineqs := hm.inequalityLength.trans hc.inequalityLength.symm
  have hle : List.Forall₂ (· ≤ ·) m.inequalities
      (p.scattered (p.recovered m)).inequalities := by
    obtain ⟨ups, lows, hsides, hups, hlows⟩ := exists_sides hm.inequalityLength
    have hsigns := hm.inequality
    rw [hsides, List.forall_mem_append] at hsigns
    rw [length_sides hfits.ranges.symm] at hups hlows
    obtain ⟨hleUps, hleLows⟩ := le_pick_recover p.rowRanges m.equations hsigns.1 hsigns.2 hups hlows
    have hrows : (p.recovered m).rows = recover p.rowRanges m.equations ups lows := by
      rw [recovered, hsides]
      exact recoverDuals_append _ _ (hups.trans (length_sides hfits.ranges.symm).symm)
    rw [hsides, scattered, hrows]
    exact List.rel_append hleUps hleLows
  have hineqLength : (m.reflected (p.scattered (p.recovered m))).inequalities.length
      = p.split.inequalities.length := by
    rw [Marginals.reflected, List.length_zipWith, ← hineqs, Nat.min_self, hm.inequalityLength]
  refine ⟨?_, hineqLength, hm.lowerLength, hm.upperLength, reflected_nonpos hle hm.inequality,
    hm.lower, hm.upper, hm.lowerAbsent, hm.upperAbsent, ?_⟩
  · rw [Marginals.reflected, List.length_zipWith, ← heqs, Nat.min_self, hm.equationLength]
  · -- the duals are the same ones
    rw [split_stationary_iff hfits hineqLength,
      recovered_reflected hm.inequalityLength hc.inequalityLength heqs,
      recovered_scattered hfits hd, zipWith_reflected_self]
    exact hd.stationary

/-- Optimal marginals of the split program are recovered as optimal duals: they are worth no
more than what their duals leave to the sides, whose reflection would else be worth
more. -/
theorem IsDualOptimum.of_split (hfits : p.Fits) (hspread : ∀ r ∈ p.rowRanges, r.Spread)
    (hm : p.split.IsDualOptimum m) : p.IsDualOptimum (p.recovered m) := by
  have hd := IsDual.recovered hfits hm.solution
  have hc := hd.scattered hfits
  have heqs := hm.solution.equationLength.trans hc.equationLength.symm
  have hineqs := hm.solution.inequalityLength.trans hc.inequalityLength.symm
  have hreflected := hm.maximal _ (reflected_isDual hfits hm.solution)
  have hvalue : p.split.dualValue (m.reflected (p.scattered (p.recovered m)))
      = 2 * p.split.dualValue m - p.split.dualValue (p.scattered (p.recovered m)) := by
    unfold Split.dualValue
    rw [Marginals.reflected, dot_zipWith_reflected heqs, dot_zipWith_reflected hineqs]
    dsimp only [scattered, recovered]
    ring
  refine ⟨hd, fun d' hd' => ?_⟩
  calc p.dualValue d' = p.split.dualValue (p.scattered d') :=
        (dualValue_scattered hfits hspread hd'.rowsLength).symm
    _ ≤ p.split.dualValue m := hm.maximal _ (hd'.scattered hfits)
    _ ≤ p.split.dualValue (p.scattered (p.recovered m)) := by linarith
    _ = p.dualValue (p.recovered m) := dualValue_scattered hfits hspread hd.rowsLength

end Program

/-! ## What solvers answer -/

namespace Program

variable [IsStrictOrderedRing K] {p : Program K}

/-- Weak duality: a solution of the dual program has a value that no point within all
ranges undercuts. -/
theorem IsDual.value_le {d : Duals K} (hfits : p.Fits) (hspread : ∀ r ∈ p.rowRanges, r.Spread)
    (hd : p.IsDual d) {x : List K}
    (hrows : ∀ e ∈ p.rows.zip p.rowRanges, e.2.Contains (Scalar.dot e.1 x))
    (hcolumns : List.Forall₂ Range.Contains p.columnRanges x) :
    p.dualValue d ≤ Scalar.dot p.costs x := by
  obtain ⟨hequations, hinequalities⟩ := length_split_rows hfits.width
  have hwidth : p.split.columns.length = p.costs.length :=
    (List.length_map _).trans hfits.columns
  have hadmits : p.split.Admits x := (split_admits_iff_bounds hspread x).mpr
    ⟨fun e he => ((Range.contains_iff _ _).mp (hrows e he)).2,
      hcolumns.imp fun r a h => ((Range.contains_iff r a).mp h).2⟩
  rw [← dualValue_scattered hfits hspread hd.rowsLength]
  exact (hd.scattered hfits).value_le (hwidth ▸ hequations) (hwidth ▸ hinequalities) hadmits

/-- The duals of a result are recovered from the marginals that the solver reports: there
is one per row, the transposed rows weighed with them are the transposed pieces weighed with
the marginals, every row has the marginals of its own sides, and if the marginals are an
optimum of the dual of the split program then the duals and the marginals of the columns are
an optimum of the dual program. -/
theorem result_recovers (hfits : p.Fits) (hspread : ∀ r ∈ p.rowRanges, r.Spread) {o : Optimum K}
    {sol : Solution K} (hsol : p.result (.optimal o) = .optimal sol)
    (heqs : o.equationMarginals.length = p.split.equations.length)
    (hineqs : o.inequalityMarginals.length = p.split.inequalities.length) :
    sol.duals.length = p.rows.length ∧
      transposeMul p.costs.length p.rows sol.duals
        = List.zipWith (· + ·)
            (transposeMul p.costs.length (p.split.equations.map Constraint.row)
              o.equationMarginals)
            (transposeMul p.costs.length (p.split.inequalities.map Constraint.row)
              o.inequalityMarginals) ∧
      p.Carries o.equationMarginals o.inequalityMarginals sol.duals ∧
      (p.split.IsDualOptimum o.marginals →
        p.IsDualOptimum ⟨sol.duals, o.lowerMarginals, o.upperMarginals⟩) := by
  cases hsol
  refine ⟨?_, transposeMul_recoverDuals _ _ hineqs, recoverDuals_carries hfits hspread heqs hineqs,
    IsDualOptimum.of_split hfits hspread⟩
  show (recover _ _ _ _).length = _
  rw [length_recover, hfits.ranges]

end Program

end Exact

/-! ## All kinds of rows -/

/-- Five rows: an equation, an upper limit, a lower limit, both, and neither. -/
def fiveRows : Program ℚ where
  costs := [1, 2, 3, 1]
  rows := [[1, 1, 0, 0], [1, 0, 0, 0], [0, 0, 0, 1], [0, 0, 1, 0], [1, 1, 1, 1]]
  rowRanges := [⟨.finite 3, .finite 3⟩, ⟨.negInf, .finite 2⟩, ⟨.finite 2, .posInf⟩,
    ⟨.finite 1, .finite 5⟩, ⟨.negInf, .posInf⟩]
  columnRanges := List.replicate 4 ⟨.finite 0, .posInf⟩

def fiveOptimum : Optimum ℚ where
  point := [2, 1, 1, 2]
  value := 9
  equationMarginals := [2]
  inequalityMarginals := [-1, 0, -1, -3]
  lowerMarginals := [0, 0, 0, 0]
  upperMarginals := [0, 0, 0, 0]

theorem fiveOptimum_isExact : fiveOptimum.IsExact fiveRows.split := by
  decide +kernel

/-- The duals of the five rows: the marginal of the equation, of the upper side, minus that
of the lower side, the difference of both sides, and zero. -/
theorem fiveRows_recovers :
    ∃ sol, fiveRows.result (.optimal fiveOptimum) = .optimal sol ∧ sol.duals = [2, -1, 1, 3, 0] ∧
      fiveRows.IsDualOptimum ⟨sol.duals, [0, 0, 0, 0], [0, 0, 0, 0]⟩ := by
  have hfits : fiveRows.Fits := ⟨rfl, by decide, rfl⟩
  have hspread : ∀ r ∈ fiveRows.rowRanges, r.Spread := by
    simp [fiveRows, Range.Spread, Scalar.magnitude_exact, equationTolerance, Scalar.ofNat]
    norm_num
  obtain ⟨hequations, hinequalities⟩ := Program.length_split_rows hfits.width
  obtain ⟨-, -, -, hoptimum⟩ := Program.result_recovers hfits hspread rfl
    fiveOptimum_isExact.equationLength fiveOptimum_isExact.inequalityLength
  refine ⟨_, rfl, by decide +kernel, hoptimum ?_⟩
  exact fiveOptimum_isExact.isDualOptimum hequations hinequalities

end Multistage.LP
