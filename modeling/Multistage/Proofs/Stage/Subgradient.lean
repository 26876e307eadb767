/-
Multistage.Proofs.Stage.Subgradient — solutions of linear stages.

The incoming state enters the program of a stage as the right-hand sides of
its first rows and nowhere else (`programAt`).  So with a solver whose optima
are exact, a solution carries the optimal value of the stage, and its duals
bound the value at every other incoming state: from below when costs are
minimized, from above when profits are maximized.

The bound on the value to come may be infinite.  No value is beyond a lower bound
of plus infinity or an upper bound of minus infinity, but split programs forget
limits that are no numbers (`answer_relaxed`).  Under such a bound the solution is
that of the stage without it, and the stage itself has none.
-/
import Multistage.Proofs.LP.Limits
import Multistage.Proofs.Named
import Multistage.Proofs.Stage.Encoding

namespace Multistage

/-! ## Infinite bounds -/

/-- The infinity that no value is beyond. -/
def Sense.unreachable {α : Type} : Sense → Limit α
  | min => .posInf
  | max => .negInf

/-- The infinity that every value is beyond. -/
def Sense.vacuous {α : Type} : Sense → Limit α
  | min => .negInf
  | max => .posInf

/-- The settings with the bound that split programs keep: every value is beyond an
infinite one. -/
def Setting.relaxed {α : Type} (s : Setting α) : Setting α :=
  { s with bound := s.bound.map fun b => if b.value?.isSome then b else s.sense.vacuous }

/-- The situation with the bound that split programs keep. -/
def Situation.relaxed {α : Type} (t : Situation α) : Situation α :=
  { t with setting := t.setting.relaxed }

namespace LinearStage

variable {K : Type} [Field K] [LinearOrder K]

/-- The objectives, in the sense of the problem, of the points that the program
of a stage admits in a situation, at an incoming state, for a scenario. -/
def values (p : LinearStage K) (s : Situation K) (x : Point K) (k : Int) : Set K :=
  {v | ∃ a w, p.assemble s x k = .ok a ∧ a.Admits w ∧ v = s.setting.sense.sign * a.cost w}

/-! ## Where the incoming state enters -/

section Program

variable (p : LinearStage K) (s : Setting K) (cuts : List (Cut K)) (costs : List K)

/-- The rows after those that tie the copy. -/
def laterRows : List (List K) := p.stageRows ++ (activeCuts s cuts).map (p.cutRow s.sense)

/-- The program at an incoming state, with the ranges that signs leave to the
later rows. -/
def programAt (later : List (LP.Range K)) (x : Point K) : LP.Program K :=
  let a := p.assembly s cuts x costs []
  ⟨a.costs, p.copyRows ++ p.laterRows s cuts, x.map LP.RowSense.equal.range ++ later, a.columns⟩

end Program

variable {p : LinearStage K} {s : Setting K} {cuts : List (Cut K)} {costs : List K}

/-- Only the first ranges of a program depend on the incoming state, and its
rows hold by range where they hold by sign. -/
theorem exists_programAt {x rhs : List K} (hx : x.length = p.stateCount)
    {program : LP.Program K} (h : (p.assembly s cuts x costs rhs).program = .ok program) :
    ∃ later, program = p.programAt s cuts costs later x ∧
      (∀ r ∈ later, ∃ (t : LP.RowSense) (b : K), r = t.range b) ∧
      ∀ x' : Point K, x'.length = p.stateCount → ∀ w,
        (p.assembly s cuts x' costs rhs).Admits w
          ↔ (∀ e ∈ (p.programAt s cuts costs later x').rows.zip
              (p.programAt s cuts costs later x').rowRanges, e.2.Contains (Scalar.dot e.1 w)) ∧
            List.Forall₂ LP.Range.Contains (p.programAt s cuts costs later x').columnRanges w := by
  obtain ⟨ranges, hranges, rfl⟩ := LP.Program.ofSigned_eq_ok h
  simp only [assembly, List.append_assoc] at hranges
  obtain ⟨first, later, rfl, hfirst, hlater⟩ := (LP.RangesOf.append_iff (by simp [hx])).mp hranges
  rw [← hx, LP.rangesOf_equal] at hfirst
  subst hfirst
  refine ⟨later, ?_, hlater.exists_sense, fun x' hx' w => ?_⟩
  · simp only [programAt, laterRows, assembly, List.append_assoc]
  · have hranges' : LP.RangesOf (p.assembly s cuts x' costs rhs).signs
        (p.assembly s cuts x' costs rhs).rhs (x'.map LP.RowSense.equal.range ++ later) := by
      simp only [assembly, List.append_assoc]
      refine (LP.RangesOf.append_iff (by simp [hx'])).mpr ⟨_, later, rfl, ?_, hlater⟩
      rw [← hx', LP.rangesOf_equal]
    have hrows : (p.assembly s cuts x' costs rhs).rows = p.copyRows ++ p.laterRows s cuts := by
      simp only [assembly, laterRows, List.append_assoc]
    rw [Assembly.admits_iff, hranges'.rowsHold_iff, hrows]
    rfl

theorem length_programAt_rows (hp : p.IsRegular) (s : Setting K) (cuts : List (Cut K))
    (costs : List K) (later : List (LP.Range K)) (x : Point K) :
    ∀ row ∈ (p.programAt s cuts costs later x).rows,
      row.length = (p.programAt s cuts costs later x).split.columns.length := by
  have hcolumns : (p.programAt s cuts costs later x).split.columns.length
      = p.stateCount + (p.decisions + 1) := by
    simp [LP.Program.split, programAt, assembly, hp.ranges]
  intro row hrow
  rw [hcolumns]
  simp only [programAt, laterRows, List.mem_append] at hrow
  rcases hrow with hrow | hrow | hrow
  · obtain ⟨i, -, rfl⟩ := List.mem_map.mp hrow
    simp
  · obtain ⟨i, hi, rfl⟩ := List.getElem_of_mem hrow
    simp only [stageRows, List.length_zipWith, lt_min_iff] at hi
    simp [stageRows, hp.inflowRows _ (List.getElem_mem hi.1), hp.rows _ (List.getElem_mem hi.2)]
  · obtain ⟨c, -, rfl⟩ := List.mem_map.mp hrow
    simp [cutRow]

theorem columns_limits (hlimits : ∀ r ∈ p.ranges, r.lower ≠ .posInf ∧ r.upper ≠ .negInf)
    (htheta : ¬(thetaRange s).Void) {later : List (LP.Range K)} (x : Point K) :
    ∀ r ∈ (p.programAt s cuts costs later x).columnRanges,
      r.lower ≠ .posInf ∧ r.upper ≠ .negInf := by
  intro r hr
  simp only [programAt, assembly, List.mem_append, List.mem_singleton] at hr
  rcases hr with (hr | hr) | rfl
  · rw [List.eq_of_mem_replicate hr]
    exact ⟨by simp, by simp⟩
  · exact hlimits r hr
  · exact not_or.mp htheta

/-! ## The split program -/

section Split

variable [IsStrictOrderedRing K] {later : List (LP.Range K)}

/-- Of the split program, the incoming state is the right-hand side of the first
equations, and the rest does not depend on it. -/
theorem exists_split (p : LinearStage K) (s : Setting K) (cuts : List (Cut K)) (costs : List K)
    (later : List (LP.Range K)) :
    ∃ equations inequalities columns, ∀ x : Point K, x.length = p.stateCount →
      (p.programAt s cuts costs later x).split
        = { costs := (p.assembly s cuts [] costs []).costs
            equations := List.zipWith LP.Constraint.mk p.copyRows x ++ equations
            inequalities, columns } := by
  refine ⟨LP.sides LP.Range.equation? (p.laterRows s cuts) later,
    LP.sides LP.Range.upperSide? (p.laterRows s cuts) later ++
      (LP.sides LP.Range.lowerSide? (p.laterRows s cuts) later).map LP.Constraint.negate,
    (p.assembly s cuts [] costs []).columns.map fun r => (r.lower.value?, r.upper.value?),
    fun x hx => ?_⟩
  have hlen : p.copyRows.length = (x.map LP.RowSense.equal.range).length := by
    rw [length_copyRows, List.length_map, hx]
  simp only [LP.Program.split, programAt, LP.sides_append hlen, LP.sides_equation,
    LP.sides_eq_nil LP.equal_upperSide?, LP.sides_eq_nil LP.equal_lowerSide?, List.nil_append]
  rfl

/-- The split program admits what the assembled one does. -/
theorem exists_split_program (hlimits : ∀ r ∈ p.ranges, r.lower ≠ .posInf ∧ r.upper ≠ .negInf)
    (htheta : ¬(thetaRange s).Void) {x rhs : List K} (hx : x.length = p.stateCount)
    {program : LP.Program K} (hprogram : (p.assembly s cuts x costs rhs).program = .ok program) :
    ∃ later, program = p.programAt s cuts costs later x ∧
      ∀ x' : Point K, x'.length = p.stateCount → ∀ w,
        (p.programAt s cuts costs later x').split.Admits w
          ↔ (p.assembly s cuts x' costs rhs).Admits w := by
  obtain ⟨later, rfl, hsense, hadmits⟩ := exists_programAt hx hprogram
  refine ⟨later, rfl, fun x' hx' w => ?_⟩
  rw [hadmits x' hx', LP.Program.split_admits ?_ (columns_limits hlimits htheta x')]
  intro r hr
  rcases List.mem_append.mp hr with hr | hr
  · obtain ⟨b, -, rfl⟩ := List.mem_map.mp hr
    exact ⟨_, b, rfl⟩
  · exact hsense r hr

/-- An exact optimum at one incoming state bounds the costs at another one by
the marginals of the first equations. -/
theorem optimum_bound (hp : p.IsRegular) (rhs : List K) {x x' w : List K}
    (hx : x.length = p.stateCount) (hx' : x'.length = p.stateCount) {o : LP.Optimum K}
    (ho : o.IsExact (p.programAt s cuts costs later x).split)
    (hw : (p.programAt s cuts costs later x').split.Admits w) :
    o.value + Scalar.dot (o.equationMarginals.take p.stateCount) (List.zipWith (· - ·) x' x)
      ≤ (p.assembly s cuts x' costs rhs).cost w := by
  obtain ⟨equations, inequalities, columns, hsplit⟩ := exists_split p s cuts costs later
  have hlen : ∀ {x : Point K}, x.length = p.stateCount → p.copyRows.length = x.length :=
    fun hx => length_copyRows.trans hx.symm
  obtain ⟨hequations, hinequalities⟩ := LP.Program.length_split_rows
    (length_programAt_rows hp s cuts costs later x)
  have hbound := ho.bound hequations hinequalities
    (by rw [hsplit x hx, hsplit x' hx', List.map_append, List.map_append,
      LP.map_row_zipWith (hlen hx), LP.map_row_zipWith (hlen hx')])
    (by rw [hsplit x hx, hsplit x' hx']) (by rw [hsplit x hx, hsplit x' hx']) hw
  have hmarginals : ∀ {x : Point K}, x.length = p.stateCount →
      Scalar.dot o.equationMarginals
          ((p.programAt s cuts costs later x).split.equations.map LP.Constraint.rhs)
        = Scalar.dot (o.equationMarginals.take p.stateCount) x
          + Scalar.dot (o.equationMarginals.drop p.stateCount)
              (equations.map LP.Constraint.rhs) := by
    intro y hy
    have htake : (o.equationMarginals.take p.stateCount).length = y.length := by
      rw [List.length_take, ho.equationLength, hsplit x hx]
      simp [length_copyRows, hx, hy]
    rw [hsplit y hy, List.map_append, LP.map_rhs_zipWith (hlen hy), ← Scalar.dot_append htake,
      List.take_append_drop]
  rw [hmarginals hx, hmarginals hx'] at hbound
  rw [Scalar.dot_zipWith_sub (hx'.trans hx.symm)]
  have hcosts : (p.assembly s cuts x' costs rhs).cost w
      = Scalar.dot (p.programAt s cuts costs later x).split.costs w := rfl
  rw [hcosts]
  linarith

end Split

/-! ## The range of the value to come -/

/-- No value to come is left exactly under a bound that none is beyond. -/
theorem void_thetaRange_iff (s : Setting K) :
    (thetaRange s).Void ↔ s.final = false ∧ s.bound = some s.sense.unreachable := by
  obtain ⟨sense, final, bound, stage, markovState⟩ := s
  unfold thetaRange LP.Range.Void
  cases final with
  | true => simp
  | false => cases sense <;> cases bound <;> simp [Sense.unreachable]

theorem not_void_relaxed (s : Setting K) : ¬(thetaRange s.relaxed).Void := by
  rw [void_thetaRange_iff]
  rintro ⟨-, hbound⟩
  obtain ⟨b, -, hb⟩ := Option.map_eq_some_iff.mp hbound
  change (if b.value?.isSome then b else s.sense.vacuous) = s.sense.unreachable at hb
  generalize s.sense = sense at hb
  cases b <;> cases sense <;> exact nomatch hb

theorem bounds_thetaRange_relaxed (s : Setting K) :
    (thetaRange s.relaxed).bounds = (thetaRange s).bounds := by
  obtain ⟨sense, final, bound, stage, markovState⟩ := s
  unfold thetaRange LP.Range.bounds Setting.relaxed
  cases final with
  | true => rfl
  | false => cases sense <;> cases bound with
    | none => rfl
    | some b => cases b <;> rfl

/-- Without a value to come the program admits nothing. -/
theorem values_eq_empty {t : Situation K} (h : (thetaRange t.setting).Void) (x : Point K)
    (k : Int) : p.values t x k = ∅ := by
  refine Set.eq_empty_of_forall_notMem ?_
  rintro v ⟨a, w, ha, hw, -⟩
  obtain ⟨-, costs, rhs, -, rfl⟩ := assemble_eq_ok.mp ha
  obtain ⟨theta, _, htheta, -⟩ := List.forall₂_cons_right_iff.mp
    (List.forall₂_drop_append _ _ _ hw.columns.flip)
  exact ((LP.Range.contains_iff _ _).mp htheta).1 h

/-- Columns enter a solve by their finite limits only. -/
theorem solve_columns (solver : LP.Solver K) (params : Named Value) (q : LP.Program K)
    {columns : List (LP.Range K)}
    (h : columns.map LP.Range.bounds = q.columnRanges.map LP.Range.bounds) :
    LP.Program.solve solver params { q with columnRanges := columns } = q.solve solver params := by
  have hsplit : ({ q with columnRanges := columns } : LP.Program K).split = q.split :=
    congrArg (LP.Split.mk _ _ _) h
  unfold LP.Program.solve
  rw [hsplit]
  rfl

/-- A solver is handed the same program with the bound that split programs keep. -/
theorem solve_relaxed (solver : LP.Solver K) (params : Named Value) (x rhs : List K) :
    ((p.assembly s.relaxed cuts x costs rhs).program >>= fun q => q.solve solver params)
      = (p.assembly s cuts x costs rhs).program >>= fun q => q.solve solver params := by
  have hbounds : (p.assembly s.relaxed cuts x costs rhs).columns.map LP.Range.bounds
      = (p.assembly s cuts x costs rhs).columns.map LP.Range.bounds := by
    simp only [assembly, List.map_append, List.map_cons, bounds_thetaRange_relaxed]
  unfold Assembly.program LP.Program.ofSigned
  rw [bind_assoc, bind_assoc]
  refine bind_congr fun ranges => ?_
  rw [pure_bind, pure_bind]
  exact solve_columns solver params
    ⟨_, _, ranges, (p.assembly s cuts x costs rhs).columns⟩ hbounds

theorem answer_relaxed (solver : LP.Solver K) (t : Situation K) (x : Point K) (k : Int) :
    p.answer solver t.relaxed x k = p.answer solver t x k := by
  unfold answer assemble
  simp only [bind_assoc, pure_bind]
  refine bind_congr fun _ => bind_congr fun scenario => ?_
  have hsolve := @solve_relaxed K _ _ p t.setting t.cuts scenario.1 solver t.params x scenario.2
  rw [← bind_assoc, ← bind_assoc]
  exact congrArg (· >>= _) hsolve

/-! ## Solutions -/

/-- What an answer was made from. -/
theorem answer_eq_ok {solver : LP.Solver K} {t : Situation K} {x : Point K} {k : Int}
    {sol : StageSolution K} (h : p.answer solver t x k = .ok sol) :
    ∃ costs rhs program settings o,
      (∀ x' : Point K, x'.length = p.stateCount →
        p.assemble t x' k = .ok (p.assembly t.setting t.cuts x' costs rhs)) ∧
      x.length = p.stateCount ∧ costs ∈ p.costs ∧
      (p.assembly t.setting t.cuts x costs rhs).program = .ok program ∧
      solver settings program.split = .ok (.optimal o) ∧
      sol = p.stageSolution t.setting.sense costs
        ⟨o.value, o.point, program.recoverDuals o.equationMarginals o.inequalityMarginals⟩ := by
  unfold answer at h
  obtain ⟨a, ha, h⟩ := bind_eq_ok.mp h
  obtain ⟨program, hprogram, h⟩ := bind_eq_ok.mp h
  obtain ⟨result, hresult, h⟩ := bind_eq_ok.mp h
  obtain ⟨hx, costs, rhs, hscenario, rfl⟩ := assemble_eq_ok.mp ha
  obtain ⟨n, rfl, -, hcosts, -⟩ := scenario_eq_ok hscenario
  unfold LP.Program.solve at hresult
  obtain ⟨settings, -, hresult⟩ := bind_eq_ok.mp hresult
  obtain ⟨outcome, hsolver, hresult⟩ := bind_eq_ok.mp hresult
  cases pure_eq_ok.mp hresult
  cases outcome with
  | optimal o =>
    simp only [LP.Program.result] at h
    obtain ⟨_, -, h⟩ := bind_eq_ok.mp h
    refine ⟨costs, rhs, program, settings, o, ?_, hx, ?_, hprogram, hsolver, ?_⟩
    · intro x' hx'
      exact assemble_eq_ok.mpr ⟨hx', costs, rhs, hscenario, rfl⟩
    · exact List.mem_of_getElem? hcosts
    · rw [← pure_eq_ok.mp h]
      simp [hcosts]
  | infeasible => cases h
  | unbounded => cases h
  | limited => cases h
  | failed => cases h

/-- A point of a program, block by block. -/
theorem point_blocks {K : Type} [Zero K] {p : LinearStage K} {w : List K}
    (h : w.length = p.stateCount + (p.decisions + 1)) :
    w = w.take p.stateCount ++ (w.drop p.stateCount).take p.decisions ++ [w.getLastD 0] := by
  have hrest : (w.drop p.stateCount).drop p.decisions = [w.getLastD 0] := by
    obtain ⟨init, last, rfl⟩ := (List.eq_nil_or_concat w).resolve_left (by rintro rfl; simp at h)
    have hinit : init.length = p.stateCount + p.decisions := by
      rw [List.concat_eq_append, List.length_append, List.length_singleton] at h
      omega
    rw [List.drop_drop, ← hinit]
    simp
  rw [List.append_assoc, ← hrest, List.take_append_drop, List.take_append_drop]

theorem recoverDuals_take [IsStrictOrderedRing K] {later : List (LP.Range K)} {x : Point K}
    (hx : x.length = p.stateCount) {equations inequalities : List K}
    (hlen : p.stateCount ≤ equations.length) :
    ((p.programAt s cuts costs later x).recoverDuals equations inequalities).take p.stateCount
      = equations.take p.stateCount := by
  have hfirst : ∀ r ∈ x.map LP.RowSense.equal.range, r.equation?.isSome := by
    intro r hr
    obtain ⟨b, -, rfl⟩ := List.mem_map.mp hr
    rw [LP.equation?_range]
    rfl
  have hcount : (x.map LP.RowSense.equal.range).length = p.stateCount := by simpa using hx
  rw [LP.Program.recoverDuals, ← hcount]
  exact LP.recover_take _ _ hfirst (by rwa [hcount])

theorem stageSolution_objective (p : LinearStage K) (t : Sense) (costs : List K)
    (r : LP.Solution K) : (p.stageSolution t costs r).objective = t.sign * r.objective :=
  towardsMin_eq t r.objective

theorem stageSolution_duals (p : LinearStage K) (t : Sense) (costs : List K)
    (r : LP.Solution K) :
    (p.stageSolution t costs r).duals = (r.duals.take p.stateCount).map (t.sign * ·) :=
  List.map_congr_left fun a _ => towardsMin_eq t a

/-- The stage's own objective and the value to come add up to the costs, in the
sense of the problem. -/
theorem stageSolution_values (hp : p.IsRegular) {costs rhs : List K} (hcosts : costs ∈ p.costs)
    (t : Setting K) (x : Point K) {r : LP.Solution K}
    (hlen : r.point.length = p.stateCount + (p.decisions + 1)) :
    ∃ theta, (p.stageSolution t.sense costs r).values.get? thetaName = some theta ∧
      t.sense.sign * (p.assembly t cuts x costs rhs).cost r.point
        = (p.stageSolution t.sense costs r).stageObjective + theta := by
  refine ⟨r.point.getLastD 0, Named.get?_put_self _ _ _, ?_⟩
  have hcost := assembly_cost (x := x) t cuts rhs (hp.costRows costs hcosts)
    (z := r.point.take p.stateCount) (y := (r.point.drop p.stateCount).take p.decisions)
    (by simp [hlen]) (by simp [hlen]) (r.point.getLastD 0)
  rw [← point_blocks hlen] at hcost
  rw [hcost, Sense.sign_mul_cancel]
  rfl

variable [IsStrictOrderedRing K]

/-- Whether a solution is right for a stage in a situation: it carries the best
objective, made up of the stage's own and the value to come, and its duals bound
the objectives, from the side that the sense asks for, at every incoming state at
which there are any. -/
structure IsRightFor (sol : StageSolution K) (p : LinearStage K) (t : Situation K) (x : Point K)
    (k : Int) : Prop where
  best : t.setting.sense.IsBest (p.values t x k) sol.objective
  parts : ∃ theta, sol.values.get? thetaName = some theta ∧
    sol.objective = sol.stageObjective + theta
  dimension : sol.duals.length = p.stateCount
  bound : ∀ x' : Point K, x'.length = p.stateCount → ∀ v ∈ p.values t x' k,
    t.setting.sense.below (sol.objective + Scalar.dot sol.duals (List.zipWith (· - ·) x' x)) v

theorem answer_isRightFor {solver : LP.Solver K} (hsolver : solver.IsExact) (hp : p.IsRegular)
    (hlimits : ∀ r ∈ p.ranges, r.lower ≠ .posInf ∧ r.upper ≠ .negInf) {t : Situation K}
    (htheta : ¬(thetaRange t.setting).Void) {x : Point K} {k : Int} {sol : StageSolution K}
    (h : p.answer solver t x k = .ok sol) : IsRightFor sol p t x k := by
  obtain ⟨costs, rhs, program, settings, o, hassemble, hx, hcosts, hprogram, hoptimum, rfl⟩ :=
    answer_eq_ok h
  obtain ⟨later, rfl, hadmits⟩ := exists_split_program hlimits htheta hx hprogram
  have ho := hsolver _ _ _ hoptimum
  have hfeasible := (hadmits x hx o.point).mp ho.feasible
  have hvalue : o.value = (p.assembly t.setting t.cuts x costs rhs).cost o.point := ho.value
  have hpoint : o.point.length = p.stateCount + (p.decisions + 1) := by
    rw [← hfeasible.columns.length_eq]
    simp [assembly, hp.ranges]
  have hmarginals : p.stateCount ≤ o.equationMarginals.length := by
    obtain ⟨equations, _, _, hsplit⟩ := exists_split p t.setting t.cuts costs later
    rw [ho.equationLength, hsplit x hx]
    simp [length_copyRows, hx]
  -- no point at any incoming state is better than the marginals say
  have hbound : ∀ x' : Point K, x'.length = p.stateCount → ∀ v ∈ p.values t x' k,
      t.setting.sense.below (t.setting.sense.sign * (o.value +
        Scalar.dot (o.equationMarginals.take p.stateCount) (List.zipWith (· - ·) x' x))) v := by
    rintro x' hx' _ ⟨a, w, ha, hw, rfl⟩
    cases ha.symm.trans (hassemble x' hx')
    have hcost := optimum_bound hp rhs hx hx' ho ((hadmits x' hx' w).mpr hw)
    rwa [Sense.below_iff, Sense.sign_mul_cancel, Sense.sign_mul_cancel]
  refine ⟨?best, ?parts, ?dimension, ?bound⟩
  case best =>
    rw [stageSolution_objective]
    refine ⟨⟨_, o.point, hassemble x hx, hfeasible, by rw [hvalue]⟩, fun v hv => ?_⟩
    have hself := hbound x hx v hv
    rwa [Scalar.dot_zipWith_sub rfl, sub_self, add_zero] at hself
  case parts =>
    rw [stageSolution_objective, hvalue]
    exact stageSolution_values hp hcosts t.setting x hpoint
  case dimension =>
    rw [stageSolution_duals, recoverDuals_take hx hmarginals]
    simp [hmarginals]
  case bound =>
    intro x' hx' v hv
    rw [stageSolution_objective, stageSolution_duals, recoverDuals_take hx hmarginals,
      Scalar.dot_map_mul, ← mul_add]
    exact hbound x' hx' v hv

/-- A solution of a linear stage is right for the stage with the bound that split
programs keep.  It is right for the stage itself unless the value to come is bounded
by the infinity that no number is beyond: plus infinity for costs, minus infinity for
profits. -/
theorem solution_isRightFor {solver : LP.Solver K} (hsolver : solver.IsExact)
    {st : Statement K} (hst : st.IsRectangular) (hp : ofStatement st = .ok p)
    (hlimits : ∀ r ∈ p.ranges, r.lower ≠ .posInf ∧ r.upper ≠ .negInf) {q : StageProblem K}
    (hq : q = { p.problem solver with
      setting := q.setting, cuts := q.cuts, params := q.params, probabilities := q.probabilities })
    {x : Point K} {k : Int} {sol : StageSolution K} (h : q.solve x k = .ok sol) :
    IsRightFor sol p q.situation.relaxed x k ∧
    (IsRightFor sol p q.situation x k
      ↔ (q.setting.final = false → q.setting.bound ≠ some q.setting.sense.unreachable)) := by
  have hanswer : p.answer solver q.situation x k = .ok sol := by
    have hown : q.answer = p.answer solver := by rw [hq]; rfl
    rw [← hown]
    exact (StageProblem.solve_eq_ok.mp h).2
  have hregular := ofStatement_isRegular hst hp
  refine ⟨answer_isRightFor hsolver hregular hlimits (not_void_relaxed _)
    ((answer_relaxed ..).trans hanswer), ?_⟩
  rw [← not_and, ← void_thetaRange_iff]
  constructor
  · intro hsol hvoid
    have hmem := hsol.best.1
    rw [values_eq_empty hvoid] at hmem
    exact hmem
  · intro hvoid
    exact answer_isRightFor hsolver hregular hlimits hvoid hanswer

/-- A stage whose one decision is the incoming state, at a cost of one each. -/
def carriedOver : Statement ℚ where
  matrix := .ok ⟨[1, 1], [1]⟩
  stateOut := .ok [0]
  costs := .ok (Tensor.vector [1])
  rhs := .ok (Tensor.vector [0])
  probabilities := .ok (some (Tensor.vector [1]))
  inflow := .ok (some ⟨[1, 1], [-1]⟩)
  signs := .ok [LP.RowSense.equal.sign]
  names := .ok (some ["y"])

def carriedStage : LinearStage ℚ where
  decisions := 1
  costs := [[1]]
  rows := [[1]]
  inflow := [[-1]]
  rhs := [[0]]
  signs := [LP.RowSense.equal.sign]
  stateOut := [0]
  ranges := [⟨.finite 0, .posInf⟩]
  names := ["y"]
  probabilities := Tensor.vector [1]
  params := []

/-- Its optimum at the state three, with the cut that says one and twice the outgoing
state. -/
def carriedOptimum : LP.Optimum ℚ where
  point := [3, 3, 7]
  value := 10
  equationMarginals := [3, 3]
  inequalityMarginals := [-1]
  lowerMarginals := [0, 0, 0]
  upperMarginals := [0, 0, 0]

/-- The stage with that cut and a bound on the value to come. -/
def carriedProblem (bound : Limit ℚ) : StageProblem ℚ :=
  { carriedStage.problem (.certified [carriedOptimum]) with
    setting := { bound := some bound }, cuts := [⟨1, [2]⟩] }

/-- At the state three it costs ten, and at others at least as much as the slope
three says.  It costs ten as well with a lower bound of plus infinity, under which
there should be no solution. -/
theorem carriedProblem_isRightFor :
    (∃ sol, (carriedProblem (.finite 0)).solve [3] 0 = .ok sol ∧
      sol.objective = 10 ∧ sol.duals = [3] ∧
      IsRightFor sol carriedStage (carriedProblem (.finite 0)).situation [3] 0) ∧
    ∃ sol, (carriedProblem .posInf).solve [3] 0 = .ok sol ∧ sol.objective = 10 ∧
      ¬IsRightFor sol carriedStage (carriedProblem .posInf).situation [3] 0 := by
  have hst : carriedOver.IsRectangular := by
    constructor <;> rintro t ⟨⟩ <;> rfl
  have hlimits : ∀ r ∈ carriedStage.ranges, r.lower ≠ .posInf ∧ r.upper ≠ .negInf := by
    simp [carriedStage]
  have hfigures : ∀ bound : Limit ℚ, bound = .finite 0 ∨ bound = .posInf →
      ((carriedProblem bound).solve [3] 0).toOption.map (fun s => (s.objective, s.duals))
        = some (10, [3]) := by
    rintro bound (rfl | rfl) <;> decide +kernel
  have hrun : ∀ bound : Limit ℚ, bound = .finite 0 ∨ bound = .posInf →
      ∃ sol, (carriedProblem bound).solve [3] 0 = .ok sol ∧
        sol.objective = 10 ∧ sol.duals = [3] := by
    intro bound hbound
    obtain ⟨sol, hsol, hpair⟩ := Option.map_eq_some_iff.mp (hfigures bound hbound)
    exact ⟨sol, eq_ok_of_toOption hsol, congrArg Prod.fst hpair, congrArg Prod.snd hpair⟩
  constructor
  · obtain ⟨sol, hsol, hobjective, hduals⟩ := hrun (.finite 0) (.inl rfl)
    refine ⟨sol, hsol, hobjective, hduals, ?_⟩
    exact (solution_isRightFor (LP.Solver.certified_isExact _) hst rfl hlimits rfl hsol).2.mpr
      (by simp [carriedProblem, Sense.unreachable])
  · obtain ⟨sol, hsol, hobjective, -⟩ := hrun .posInf (.inr rfl)
    refine ⟨sol, hsol, hobjective, fun hright => ?_⟩
    exact (solution_isRightFor (LP.Solver.certified_isExact _) hst rfl hlimits rfl hsol).2.mp
      hright rfl rfl

end LinearStage

end Multistage
