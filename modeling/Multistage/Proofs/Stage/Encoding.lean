/-
Multistage.Proofs.Stage.Encoding — what the program of a linear stage says.

A stage asks for decisions `y` and an approximation `theta` of the value to
come: rows and limits hold, and `theta` is zero in the last stage and beyond
the bound and all cuts otherwise.  `IsAllowed` and `IsBeyond` say so in the
stage's own terms.  The assembled program says the same of its columns
`(z, y, theta)`, with `z` tied to the incoming state, and charges
`sign · (c · y + theta)` — of cuts as they are `written`, which is as they were
given unless a decision is listed twice among the outgoing states.
-/
import Multistage.Proofs.LP.Feasible
import Multistage.Proofs.Stage.Scatter
import Multistage.Proofs.Stage.WellFormed
import Mathlib.Data.List.Nodup
import Mathlib.Algebra.Order.Field.Rat

namespace Multistage.LinearStage

variable {K : Type} [Field K] [LinearOrder K]

/-! ## What a stage asks for -/

/-- The outgoing state that decisions lead to. -/
def outgoing (p : LinearStage K) (y : List K) : Point K := p.stateOut.map fun j => y.getD j 0

/-- Whether decisions satisfy the rows of the stage, after an incoming state
and with right-hand sides, and their limits. -/
def IsAllowed (p : LinearStage K) (x rhs y : List K) : Prop :=
  (∀ e ∈ (p.inflow.zip p.rows).zip (p.signs.zip rhs),
    LP.SignHolds e.2.1 (Scalar.dot e.1.1 x + Scalar.dot e.1.2 y) e.2.2) ∧
  List.Forall₂ LP.Range.Contains p.ranges y

/-- Whether the value to come is zero in the last stage, and otherwise beyond
its bound and every cut at an outgoing state. -/
def IsBeyond (s : Setting K) (cuts : List (Cut K)) (out : Point K) (theta : K) : Prop :=
  if s.final then theta = 0
  else s.sense.bounds (s.bound.getD (.finite (defaultBound s.sense))) theta ∧
    ∀ c ∈ cuts, s.sense.below (c.eval out) theta

/-- A cut with the coefficients that are written into its row. -/
def written (p : LinearStage K) (c : Cut K) : Cut K :=
  ⟨c.intercept, keepLast p.stateOut c.coefficients⟩

namespace Assembly

/-- The points that satisfy the rows and limits of a program. -/
structure Admits (a : Assembly K) (w : List K) : Prop where
  rows : LP.RowsHold a.rows a.signs a.rhs w
  columns : List.Forall₂ LP.Range.Contains a.columns w

theorem admits_iff {a : Assembly K} {w : List K} :
    a.Admits w ↔ LP.RowsHold a.rows a.signs a.rhs w ∧ List.Forall₂ LP.Range.Contains a.columns w :=
  ⟨fun h => ⟨h.rows, h.columns⟩, fun h => ⟨h.1, h.2⟩⟩

/-- The objective at a point, which is to be minimized. -/
def cost (a : Assembly K) (w : List K) : K := Scalar.dot a.costs w

end Assembly

theorem mem_activeCuts {α : Type} {s : Setting α} {cuts : List (Cut α)} {c : Cut α}
    (h : c ∈ activeCuts s cuts) : c ∈ cuts := by
  unfold activeCuts at h
  split at h
  · exact absurd h List.not_mem_nil
  · exact h

/-! ## Blocks of columns -/

theorem dot_blocks {a b z y : List K} (ha : a.length = z.length) (hb : b.length = y.length)
    (c theta : K) :
    Scalar.dot (a ++ b ++ [c]) (z ++ y ++ [theta])
      = Scalar.dot a z + Scalar.dot b y + c * theta := by
  rw [Scalar.dot_append (by simp [ha, hb]), Scalar.dot_append ha]
  simp

theorem forall₂_append {α β : Type} {R : α → β → Prop} {as as' : List α} {bs bs' : List β}
    (h : as.length = bs.length) :
    List.Forall₂ R (as ++ as') (bs ++ bs') ↔ List.Forall₂ R as bs ∧ List.Forall₂ R as' bs' := by
  induction as generalizing bs with
  | nil =>
    rw [List.length_eq_zero_iff.mp h.symm]
    simp
  | cons a as ih =>
    cases bs with
    | nil => simp at h
    | cons b bs => simp [ih (by simpa using h), and_assoc]

theorem towardsMin_eq (s : Sense) (a : K) : towardsMin s a = s.sign * a := by
  cases s <;> simp [towardsMin, Sense.sign]

section Blocks

variable {p : LinearStage K} {x z y : List K} {theta : K}

theorem length_copyRows : p.copyRows.length = p.stateCount := by
  simp [copyRows]

/-- The copy rows tie the first columns to the incoming state. -/
theorem copyRows_hold (hx : x.length = p.stateCount) (hz : z.length = p.stateCount)
    (hy : y.length = p.decisions) (theta : K) :
    LP.RowsHold p.copyRows (List.replicate p.stateCount LP.RowSense.equal.sign) x
        (z ++ y ++ [theta]) ↔ z = x := by
  have hrow : ∀ i < p.stateCount,
      Scalar.dot (scatter p.stateCount [i] [1] ++ List.replicate p.decisions 0 ++ [0])
        (z ++ y ++ [theta]) = z.getD i 0 := by
    intro i hi
    rw [dot_blocks (by simp [hz]) (by simp [hy]), dot_scatter z rfl (by simpa using hi)]
    simp [keepLast]
  have hsigns : List.replicate p.stateCount LP.RowSense.equal.sign
      = (List.range p.stateCount).map fun _ => LP.RowSense.equal.sign := by
    simp
  have hrhs : x = (List.range p.stateCount).map (x.getD · 0) := by rw [← hx, map_getD_range]
  have hcopy : z = (List.range p.stateCount).map (z.getD · 0) := by rw [← hz, map_getD_range]
  unfold LP.RowsHold
  conv_lhs => rw [hsigns, hrhs, copyRows, List.zip_map', List.zip_map']
  rw [List.forall_mem_map]
  simp only [LP.signHolds_sign, LP.RowSense.Holds, List.mem_range]
  constructor
  · intro h
    rw [hcopy, hrhs]
    refine List.map_congr_left fun i hi => ?_
    rw [← h i (List.mem_range.mp hi), hrow i (List.mem_range.mp hi)]
  · rintro rfl i hi
    exact hrow i hi

theorem length_stageRows (hp : p.IsRegular) : p.stageRows.length = p.rows.length := by
  simp [stageRows, hp.inflow]

/-- The stage rows are those of the stage. -/
theorem stageRows_hold (hp : p.IsRegular) (hz : z.length = p.stateCount)
    (hy : y.length = p.decisions) (rhs : List K) (theta : K) :
    LP.RowsHold p.stageRows p.signs rhs (z ++ y ++ [theta])
      ↔ ∀ e ∈ (p.inflow.zip p.rows).zip (p.signs.zip rhs),
          LP.SignHolds e.2.1 (Scalar.dot e.1.1 z + Scalar.dot e.1.2 y) e.2.2 := by
  unfold LP.RowsHold stageRows
  rw [← List.map_uncurry_zip_eq_zipWith, List.zip_map_left, List.forall_mem_map]
  refine forall₂_congr fun e he => ?_
  obtain ⟨hinflow, hrow⟩ := List.of_mem_zip (List.of_mem_zip he).1
  simp only [Prod.map, Function.uncurry, id]
  rw [dot_blocks ((hp.inflowRows _ hinflow).trans hz.symm) ((hp.rows _ hrow).trans hy.symm)]
  simp

theorem thetaRange_contains (s : Setting K) (theta : K) :
    (thetaRange s).Contains theta
      ↔ if s.final then theta = 0
        else s.sense.bounds (s.bound.getD (.finite (defaultBound s.sense))) theta := by
  unfold thetaRange
  by_cases hfinal : s.final = true
  · rw [if_pos hfinal, if_pos hfinal]
    exact ⟨fun h => le_antisymm h.2 h.1, fun h => ⟨h.ge, h.le⟩⟩
  · rw [if_neg hfinal, if_neg hfinal]
    cases hsense : s.sense <;> simp [LP.Range.Contains, Limit.IsLower, Limit.IsUpper, Sense.bounds]

theorem assembly_cost (s : Setting K) (cuts : List (Cut K)) {costs : List K} (rhs : List K)
    (hcosts : costs.length = p.decisions) (hz : z.length = p.stateCount)
    (hy : y.length = p.decisions) (theta : K) :
    (p.assembly s cuts x costs rhs).cost (z ++ y ++ [theta])
      = s.sense.sign * (Scalar.dot costs y + theta) := by
  have hmap : costs.map (towardsMin s.sense) = costs.map (s.sense.sign * ·) :=
    List.map_congr_left fun a _ => towardsMin_eq s.sense a
  rw [Assembly.cost, assembly, dot_blocks (by simp [hz]) (by simp [hcosts, hy]),
    Scalar.dot_replicate_zero, hmap, Scalar.dot_map_mul, towardsMin_eq]
  ring

/-- The columns of the assembled program: the copy is free, decisions have their
limits. -/
theorem assembly_columns (hp : p.IsRegular) (s : Setting K) (cuts : List (Cut K))
    (costs rhs : List K) (hz : z.length = p.stateCount) (hy : y.length = p.decisions) :
    List.Forall₂ LP.Range.Contains (p.assembly s cuts x costs rhs).columns (z ++ y ++ [theta])
      ↔ List.Forall₂ LP.Range.Contains p.ranges y ∧ (thetaRange s).Contains theta := by
  have hfree : List.Forall₂ LP.Range.Contains
      (List.replicate p.stateCount (⟨.negInf, .posInf⟩ : LP.Range K)) z := by
    rw [List.forall₂_iff_get]
    refine ⟨by simp [hz], fun i _ _ => ?_⟩
    simp [LP.Range.Contains, Limit.IsLower, Limit.IsUpper]
  simp only [assembly]
  rw [forall₂_append (by simp [hz, hy, hp.ranges]), forall₂_append (by simp [hz])]
  simp [hfree]

variable [IsStrictOrderedRing K]

/-- The row of a cut holds where the value to come is beyond the cut as it is
written. -/
theorem cutRow_holds (hp : p.IsRegular) {c : Cut K} (hc : c.coefficients.length = p.stateCount)
    (hz : z.length = p.stateCount) (hy : y.length = p.decisions) (s : Sense) :
    Scalar.dot (p.cutRow s c) (z ++ y ++ [theta]) ≤ -towardsMin s c.intercept
      ↔ s.below ((p.written c).eval (p.outgoing y)) theta := by
  have hcoefs : c.coefficients.map (towardsMin s) = c.coefficients.map (s.sign * ·) :=
    List.map_congr_left fun a _ => towardsMin_eq s a
  rw [cutRow, dot_blocks (by simp [hz]) (by simp [hy]), Scalar.dot_replicate_zero,
    dot_scatter y (by simpa [stateCount] using hc) hp.places, hcoefs, keepLast_map_mul,
    Scalar.dot_map_mul, towardsMin_eq, towardsMin_eq, Sense.below_iff, Cut.eval, written, outgoing,
    mul_add]
  constructor <;> intro h <;> linarith

theorem cutRows_hold (hp : p.IsRegular) {cuts : List (Cut K)}
    (hcuts : ∀ c ∈ cuts, c.coefficients.length = p.stateCount) (hz : z.length = p.stateCount)
    (hy : y.length = p.decisions) (s : Sense) :
    LP.RowsHold (cuts.map (p.cutRow s)) (cuts.map fun _ => LP.RowSense.atMost.sign)
        (cuts.map fun c => -towardsMin s c.intercept) (z ++ y ++ [theta])
      ↔ ∀ c ∈ cuts, s.below ((p.written c).eval (p.outgoing y)) theta := by
  unfold LP.RowsHold
  rw [List.zip_map', List.zip_map', List.forall_mem_map]
  refine forall₂_congr fun c hc => ?_
  rw [LP.signHolds_sign, LP.RowSense.Holds, cutRow_holds hp (hcuts c hc) hz hy]

/-! ## The assembled program -/

/-- The rows of the assembled program: the copy, the stage, and the cuts. -/
theorem assembly_rows (hp : p.IsRegular) (s : Setting K) {cuts : List (Cut K)}
    (hcuts : ∀ c ∈ cuts, c.coefficients.length = p.stateCount) {costs rhs : List K}
    (hx : x.length = p.stateCount) (hrhs : rhs.length = p.rows.length)
    (hz : z.length = p.stateCount) (hy : y.length = p.decisions) :
    LP.RowsHold (p.assembly s cuts x costs rhs).rows (p.assembly s cuts x costs rhs).signs
        (p.assembly s cuts x costs rhs).rhs (z ++ y ++ [theta])
      ↔ (z = x ∧ ∀ e ∈ (p.inflow.zip p.rows).zip (p.signs.zip rhs),
          LP.SignHolds e.2.1 (Scalar.dot e.1.1 z + Scalar.dot e.1.2 y) e.2.2) ∧
        ∀ c ∈ activeCuts s cuts, s.sense.below ((p.written c).eval (p.outgoing y)) theta := by
  have hcopies := length_copyRows (p := p)
  have hstage := length_stageRows hp
  rw [← copyRows_hold hx hz hy theta, ← stageRows_hold hp hz hy rhs theta,
    ← cutRows_hold hp (fun c hc => hcuts c (mem_activeCuts hc)) hz hy]
  simp only [assembly]
  rw [LP.rowsHold_append (by simp [hcopies, hstage, hp.signs])
      (by simp [hx, hcopies, hstage, hrhs]),
    LP.rowsHold_append (by simp [hcopies]) (hx.trans hcopies.symm)]

/-- The assembled program admits what the stage asks for, with cuts as they
are written. -/
theorem assembly_admits (hp : p.IsRegular) (s : Setting K) {cuts : List (Cut K)}
    (hcuts : ∀ c ∈ cuts, c.coefficients.length = p.stateCount) {costs rhs : List K}
    (hx : x.length = p.stateCount) (hrhs : rhs.length = p.rows.length)
    (hz : z.length = p.stateCount) (hy : y.length = p.decisions) :
    (p.assembly s cuts x costs rhs).Admits (z ++ y ++ [theta])
      ↔ z = x ∧ p.IsAllowed x rhs y ∧ IsBeyond s (cuts.map p.written) (p.outgoing y) theta := by
  rw [Assembly.admits_iff, assembly_rows hp s hcuts hx hrhs hz hy,
    assembly_columns hp s cuts costs rhs hz hy, thetaRange_contains]
  unfold IsAllowed IsBeyond activeCuts
  by_cases hfinal : s.final = true
  · simp only [if_pos hfinal, List.not_mem_nil, false_implies, implies_true, and_true]
    constructor
    · rintro ⟨⟨rfl, hstage⟩, hlimits, htheta⟩
      exact ⟨rfl, ⟨hstage, hlimits⟩, htheta⟩
    · rintro ⟨rfl, ⟨hstage, hlimits⟩, htheta⟩
      exact ⟨⟨rfl, hstage⟩, hlimits, htheta⟩
  · simp only [if_neg hfinal, List.forall_mem_map]
    constructor
    · rintro ⟨⟨⟨rfl, hstage⟩, hcut⟩, hlimits, hbound⟩
      exact ⟨rfl, ⟨hstage, hlimits⟩, hbound, hcut⟩
    · rintro ⟨rfl, ⟨hstage, hlimits⟩, hbound, hcut⟩
      exact ⟨⟨⟨rfl, hstage⟩, hcut⟩, hlimits, hbound⟩

end Blocks

/-! ## Exactness -/

/-- Whether the assembled program of every situation, incoming state and
scenario admits what the stage asks for, with its cuts seen as `seen` says, and
charges the stage's objective in the direction of minimization. -/
def Encodes (p : LinearStage K) (seen : Cut K → Cut K) : Prop :=
  ∀ (s : Situation K) (x : Point K) (k : Nat), s.scenarios = p.probabilities.size →
    k < s.scenarios → x.length = p.stateCount →
    (∀ c ∈ s.cuts, c.coefficients.length = p.stateCount) →
    ∃ a costs rhs, p.assemble s x k = .ok a ∧ p.costs[k]? = some costs ∧ p.rhs[k]? = some rhs ∧
      ∀ z y theta, z.length = p.stateCount → y.length = p.decisions →
        (a.Admits (z ++ y ++ [theta])
          ↔ z = x ∧ p.IsAllowed x rhs y ∧
            IsBeyond s.setting (s.cuts.map seen) (p.outgoing y) theta) ∧
        a.cost (z ++ y ++ [theta]) = s.setting.sense.sign * (Scalar.dot costs y + theta)

section Exactness

variable {p : LinearStage K}

/-- Two views of cuts are the same where all decisions that are listed twice
are zero. -/
theorem eval_written {c : Cut K} {y : List K}
    (hzero : ∀ j, 1 < p.stateOut.count j → y.getD j 0 = 0) :
    (p.written c).eval (p.outgoing y) = c.eval (p.outgoing y) := by
  rw [Cut.eval, Cut.eval, written, outgoing, dot_keepLast hzero]

/-- One cut, under a bound, when costs are minimized and stages follow. -/
theorem isBeyond_singleton (b : K) (c : Cut K) (out : Point K) (theta : K) :
    IsBeyond { bound := some (.finite b) } [c] out theta ↔ b ≤ theta ∧ c.eval out ≤ theta := by
  simp [IsBeyond, Sense.below]

variable [IsStrictOrderedRing K]

theorem encodes_written (hp : p.IsRegular) : p.Encodes p.written := by
  intro s x k hs hk hx hcuts
  obtain ⟨costs, rhs, hcosts, hrhs, hclen, hblen, hscenario⟩ := scenario_eq hp (hs ▸ hk)
  refine ⟨p.assembly s.setting s.cuts x costs rhs, costs, rhs, ?_, hcosts, hrhs, ?_⟩
  · rw [← hs] at hscenario
    exact assemble_eq_ok.mpr ⟨hx, costs, rhs, hscenario, rfl⟩
  · intro z y theta hz hy
    exact ⟨assembly_admits hp s.setting hcuts hx hblen hz hy,
      assembly_cost s.setting s.cuts rhs hclen hz hy theta⟩

/-- A program that is exact for all cuts shows every cut as it was given,
wherever the stage allows. -/
theorem Encodes.eval_written_eq (hp : p.IsRegular) (h : p.Encodes id) {x y rhs : List K} {k : Nat}
    (hk : k < p.probabilities.size) (hrhs : p.rhs[k]? = some rhs) (hx : x.length = p.stateCount)
    (hy : y.length = p.decisions) (hallowed : p.IsAllowed x rhs y) {c : Cut K}
    (hc : c.coefficients.length = p.stateCount) :
    (p.written c).eval (p.outgoing y) = c.eval (p.outgoing y) := by
  -- a bound below both values leaves the cut to decide
  set b := min ((p.written c).eval (p.outgoing y)) (c.eval (p.outgoing y)) with hb
  let s : Situation K :=
    { setting := { bound := some (.finite b) }, cuts := [c], params := [],
      scenarios := p.probabilities.size }
  have hcuts : ∀ d ∈ s.cuts, d.coefficients.length = p.stateCount := by
    intro d hd
    rw [List.mem_singleton.mp hd]
    exact hc
  obtain ⟨a, _, rhs₁, ha, -, hrhs₁, hexact⟩ := h s x k rfl hk hx hcuts
  obtain ⟨a', _, rhs₂, ha', -, hrhs₂, hwritten⟩ := encodes_written hp s x k rfl hk hx hcuts
  cases ha.symm.trans ha'
  cases hrhs.symm.trans hrhs₁
  cases hrhs.symm.trans hrhs₂
  have hagree : ∀ theta, b ≤ theta →
      (c.eval (p.outgoing y) ≤ theta ↔ (p.written c).eval (p.outgoing y) ≤ theta) := by
    intro theta hbound
    have hviews := (hexact x y theta hx hy).1.symm.trans (hwritten x y theta hx hy).1
    simpa [s, hallowed, isBeyond_singleton, hbound] using hviews
  exact le_antisymm ((hagree _ (min_le_right _ _)).mp le_rfl)
    ((hagree _ (min_le_left _ _)).mpr le_rfl)

theorem encodes_of_zero (hp : p.IsRegular)
    (hzero : ∀ (k : Nat) (rhs x y : List K), k < p.probabilities.size → p.rhs[k]? = some rhs →
      x.length = p.stateCount → y.length = p.decisions → p.IsAllowed x rhs y →
      ∀ j, 1 < p.stateOut.count j → y.getD j 0 = 0) : p.Encodes id := by
  intro s x k hs hk hx hcuts
  obtain ⟨a, costs, rhs, ha, hcosts, hrhs, hwritten⟩ := encodes_written hp s x k hs hk hx hcuts
  refine ⟨a, costs, rhs, ha, hcosts, hrhs, fun z y theta hz hy => ?_⟩
  obtain ⟨hadmits, hcost⟩ := hwritten z y theta hz hy
  refine ⟨hadmits.trans (and_congr_right fun _ => and_congr_right fun hallowed => ?_), hcost⟩
  have hsame := fun c => eval_written (c := c) (hzero k rhs x y (hs ▸ hk) hrhs hx hy hallowed)
  simp [IsBeyond, hsame]

theorem encodes_of_nodup (hp : p.IsRegular) (hnodup : p.stateOut.Nodup) : p.Encodes id := by
  refine encodes_of_zero hp fun k rhs x y _ _ _ _ _ j hj => ?_
  have hcount : p.stateOut.count j ≤ 1 := List.nodup_iff_count_le_one.mp hnodup j
  omega

/-- The program of a linear stage that has been constructed says of decisions,
limits and the value to come what the stage says, with each cut as it is
written into its row.  It does so for the cuts as they were given exactly if
every decision that is listed more than once among the outgoing states is zero
at all points that the stage allows; in particular if none is. -/
theorem program_exact_iff {st : Statement K} (hst : st.IsRectangular)
    (h : ofStatement st = .ok p) :
    p.Encodes p.written ∧
    (p.Encodes id ↔
      ∀ (k : Nat) (rhs x y : List K), k < p.probabilities.size → p.rhs[k]? = some rhs →
        x.length = p.stateCount → y.length = p.decisions → p.IsAllowed x rhs y →
        ∀ j, 1 < p.stateOut.count j → y.getD j 0 = 0) ∧
    (p.stateOut.Nodup → p.Encodes id) := by
  have hp := ofStatement_isRegular hst h
  refine ⟨encodes_written hp, ⟨?_, encodes_of_zero hp⟩, encodes_of_nodup hp⟩
  intro hexact k rhs x y hk hrhs hx hy hallowed j hj
  refine eq_zero_of_dot_keepLast (f := fun j => y.getD j 0) (fun entries hlen => ?_) hj
  have := hexact.eval_written_eq hp hk hrhs hx hy hallowed (c := ⟨0, entries⟩)
    (by simpa [stateCount] using hlen)
  simpa [Cut.eval, written, outgoing] using this

end Exactness

/-- One decision, which has to be one, as both of two outgoing states. -/
def listedTwice : Statement ℚ where
  matrix := .ok ⟨[1, 1], [1]⟩
  stateOut := .ok [0, 0]
  costs := .ok (Tensor.vector [1])
  rhs := .ok (Tensor.vector [1])
  probabilities := .ok (some (Tensor.vector [1]))
  signs := .ok [LP.RowSense.equal.sign]
  names := .ok (some ["y"])

/-- Its program is not exact. -/
theorem listedTwice_not_exact : ∃ p, ofStatement listedTwice = .ok p ∧ ¬p.Encodes id := by
  refine ⟨_, rfl, fun hexact => ?_⟩
  have hst : listedTwice.IsRectangular := by
    constructor <;> rintro t ⟨⟩ <;> rfl
  have hallowed : (∀ e ∈ [((([0, 0], [1]) : List ℚ × List ℚ), (LP.RowSense.equal.sign, (1 : ℚ)))],
      LP.SignHolds e.2.1 (Scalar.dot e.1.1 [0, 0] + Scalar.dot e.1.2 [1]) e.2.2) ∧
      List.Forall₂ LP.Range.Contains [(⟨.finite 0, .posInf⟩ : LP.Range ℚ)] [1] := by
    simp [LP.RowSense.Holds, LP.Range.Contains, Limit.IsLower, Limit.IsUpper]
  have hzero := (program_exact_iff hst rfl).2.1.mp hexact 0 [1] [0, 0] [1] (by decide) rfl rfl rfl
    hallowed 0 (by decide)
  exact absurd hzero (by decide)

end Multistage.LinearStage
