/-
Multistage.Proofs.Policy.Linear — linear stages have exact solutions.

The assumptions on solutions under which cuts are valid (`Decisions.Describes`)
hold of linear stages.  The objectives that the program of a linear stage
admits are those of its decisions together with values to come
(`values_eq_approximations`), so a solver whose optima are exact gives exact
solutions (`solve_isExactAt`).  The outgoing states have to be different
decisions, since a program shows cuts as they are given only then.
-/
import Multistage.Proofs.Policy.FutureValue
import Multistage.Proofs.Stage.Subgradient

namespace Multistage

variable {K : Type} [Field K] [LinearOrder K]

/-- Whether a problem is that of a linear stage, whatever its settings, cuts and
probabilities are. -/
structure StageProblem.IsLinear (q : StageProblem K) (l : LinearStage K) (solver : LP.Solver K) :
    Prop where
  stateCount : q.stateCount = l.stateCount
  answer : q.answer = l.answer solver
  scenarios : q.probabilities.size = l.probabilities.size

/-- What linear stages decide about: the decisions that they allow. -/
def Decisions.ofLinear (stages : Nat → Nat → LinearStage K) (sense : Sense) : Decisions K where
  options t i s x := {o | ∃ costs rhs y, (stages t i).costs[s]? = some costs ∧
    (stages t i).rhs[s]? = some rhs ∧ (stages t i).IsAllowed x rhs y ∧
    o = (Scalar.dot costs y, (stages t i).outgoing y)}
  fallback _ _ := some (.finite (LinearStage.defaultBound sense))

namespace LinearStage

/-- What exact solutions need of a linear stage: parts that match, outgoing
states that are different decisions, and limits that can be met. -/
structure IsProper (p : LinearStage K) : Prop where
  regular : p.IsRegular
  nodup : p.stateOut.Nodup
  limits : ∀ r ∈ p.ranges, r.lower ≠ .posInf ∧ r.upper ≠ .negInf

variable {stages : Nat → Nat → LinearStage K} {t i s : Nat}

/-- Both ways to say which values to come a problem allows. -/
theorem isBeyond_iff_admits (q : StageProblem K) (y : Point K) (theta : K) :
    IsBeyond q.setting q.cuts y theta
      ↔ (Decisions.ofLinear stages q.setting.sense).Admits q t i y theta := by
  unfold IsBeyond Decisions.Admits Decisions.ofLinear
  cases q.setting.bound with
  | none => simp
  | some b => simp

theorem length_assemble {p : LinearStage K} (hp : p.IsRegular) {u : Situation K} {x : Point K}
    {k : Int} {a : Assembly K} (h : p.assemble u x k = .ok a) :
    a.columns.length = p.stateCount + (p.decisions + 1) := by
  obtain ⟨-, costs, rhs, -, rfl⟩ := assemble_eq_ok.mp h
  simp [assembly, hp.ranges]

variable [IsStrictOrderedRing K]

/-- The program of a linear stage admits the objectives of its decisions
together with the values to come that the problem allows. -/
theorem values_eq_approximations (hp : (stages t i).IsProper) {q : StageProblem K}
    (hsize : q.probabilities.size = (stages t i).probabilities.size)
    (hs : s < q.probabilities.size) {x : Point K} (hx : x.length = (stages t i).stateCount)
    (hcuts : ∀ c ∈ q.cuts, c.coefficients.length = (stages t i).stateCount) :
    (stages t i).values q.situation x (s : Nat)
      = (Decisions.ofLinear stages q.setting.sense).approximations q t i s x := by
  obtain ⟨a, costs, rhs, ha, hcosts, hrhs, hsays⟩ :=
    encodes_of_nodup hp.regular hp.nodup q.situation x s hsize hs hx hcuts
  have hlength := length_assemble hp.regular ha
  rw [List.map_id] at hsays
  ext v
  constructor
  · rintro ⟨a', w, ha', hw, rfl⟩
    cases ha.symm.trans ha'
    have hwlength : w.length = (stages t i).stateCount + ((stages t i).decisions + 1) := by
      rw [← hw.columns.length_eq, hlength]
    obtain ⟨z, y, theta, hz, hy, rfl⟩ : ∃ z y theta, z.length = (stages t i).stateCount ∧
        y.length = (stages t i).decisions ∧ w = z ++ y ++ [theta] :=
      ⟨_, _, _, by simp [hwlength], by simp [hwlength], point_blocks hwlength⟩
    obtain ⟨hadmits, hcost⟩ := hsays z y theta hz hy
    obtain ⟨rfl, hallowed, hbeyond⟩ := hadmits.mp hw
    refine ⟨_, ⟨costs, rhs, y, hcosts, hrhs, hallowed, rfl⟩, theta, ?_, ?_⟩
    · exact (isBeyond_iff_admits q _ theta).mp hbeyond
    · rw [hcost]
      exact Sense.sign_mul_cancel _ _
  · rintro ⟨o, ⟨costs', rhs', y, hcosts', hrhs', hallowed, rfl⟩, theta, htheta, rfl⟩
    cases hcosts.symm.trans hcosts'
    cases hrhs.symm.trans hrhs'
    have hy : y.length = (stages t i).decisions := by
      rw [← hallowed.2.length_eq, hp.regular.ranges]
    obtain ⟨hadmits, hcost⟩ := hsays x y theta hx hy
    refine ⟨a, x ++ y ++ [theta], ha, hadmits.mpr ⟨rfl, hallowed, ?_⟩, ?_⟩
    · exact (isBeyond_iff_admits q _ theta).mpr htheta
    · rw [hcost]
      exact (Sense.sign_mul_cancel _ _).symm

/-- Solutions of linear stages are exact, with a solver whose optima are, if there
is a value to come beyond the bound. -/
theorem solve_isExactAt {solver : LP.Solver K} (hsolver : solver.IsExact)
    (hp : (stages t i).IsProper) {q : StageProblem K} (hq : q.IsLinear (stages t i) solver)
    (htheta : ¬(thetaRange q.setting).Void) (hs : s < q.probabilities.size)
    (hcuts : ∀ c ∈ q.cuts, c.coefficients.length = (stages t i).stateCount) {x : Point K}
    {sol : StageSolution K} (h : q.solve x (s : Nat) = .ok sol) :
    (Decisions.ofLinear stages q.setting.sense).IsExactAt q t i s x sol := by
  obtain ⟨hstate, h⟩ := StageProblem.solve_eq_ok.mp h
  rw [hq.stateCount, Int.natCast_inj] at hstate
  rw [hq.answer] at h
  have hright := answer_isRightFor hsolver hp.regular hp.limits htheta h
  have hvalues : ∀ {y : Point K}, y.length = (stages t i).stateCount →
      (stages t i).values q.situation y (s : Nat)
        = (Decisions.ofLinear stages q.setting.sense).approximations q t i s y :=
    fun hy => values_eq_approximations hp hq.scenarios hs hy hcuts
  refine ⟨?_, hright.dimension.trans hstate.symm, fun y hy v hv => ?_⟩
  · rw [← hvalues hstate]
    exact hright.best
  · rw [← hvalues (hy.trans hstate)] at hv
    exact hright.bound y (hy.trans hstate) v hv

/-! ## Models of linear stages -/

omit [IsStrictOrderedRing K] in
/-- Where values are bounded, there is a value to come beyond the bound of every
problem. -/
theorem not_void_of_isBounded {m : Model K} {built : Grid (StageProblem K)}
    (hm : m.IsMadeOf built)
    (hbounded : (Decisions.ofLinear stages m.configuration.sense).IsBounded m)
    {p : StageProblem K} (hp : m.problems.get? t i = some p) : ¬(thetaRange p.setting).Void := by
  obtain ⟨hsetting, -, hscenarios⟩ := hm.problem_spec hp
  obtain ⟨ht, hi⟩ := (Grid.get?_isSome hm.scenarios).mp ⟨_, hscenarios⟩
  rw [void_thetaRange_iff, hsetting]
  rintro ⟨hfinal, hbound⟩
  have hlater : t + 1 < m.stageCount :=
    lt_of_le_of_ne ht fun h => (beq_eq_false_iff_ne.mp hfinal) h
  change m.configuration.bound = _ at hbound
  have hvalue := hbounded.bound t i hlater hi _ (by rw [hbound]; rfl) _ rfl
  revert hvalue
  cases m.configuration.sense <;> exact id

/-- The problems of a model of linear stages are described by the decisions that
these allow. -/
theorem ofLinear_describes {solver : LP.Solver K} (hsolver : solver.IsExact) {m : Model K}
    {built : Grid (StageProblem K)} (hm : m.IsMadeOf built)
    (hlinear : ∀ t i p, m.problems.get? t i = some p →
      p.IsLinear (stages t i) solver ∧ (stages t i).IsProper)
    (hbounded : (Decisions.ofLinear stages m.configuration.sense).IsBounded m) :
    (Decisions.ofLinear stages m.configuration.sense).Describes m := by
  have hstates : ∀ t i p, m.problems.get? t i = some p →
      (stages t i).stateCount = m.configuration.initialState.length := by
    intro t i p hp
    obtain ⟨-, hcount, -⟩ := hm.problem_spec hp
    exact Int.natCast_inj.mp ((hlinear t i p hp).1.stateCount.symm.trans hcount)
  refine { hbounded with dimension := ?_, solutions := ?_ }
  · rintro t i s hmem x - o ⟨costs, rhs, y, -, -, -, rfl⟩
    obtain ⟨-, q, hq, -⟩ := Model.mem_outcomes.mp hmem
    obtain ⟨p, hp, -⟩ := hm.exists_problem hq
    rw [← hstates t i p hp]
    exact List.length_map _
  · intro t i p hp s hmem cuts hcuts x sol h
    obtain ⟨hsetting, -, hscenarios⟩ := hm.problem_spec hp
    obtain ⟨⟨hcount, hanswer, hsize⟩, hproper⟩ := hlinear t i p hp
    obtain ⟨-, q, hq, hs⟩ := Model.mem_outcomes.mp hmem
    cases hscenarios.symm.trans hq
    have hsense : m.configuration.sense = p.setting.sense := by rw [hsetting]
    have htheta := not_void_of_isBounded hm hbounded hp
    have hlengths : ∀ c ∈ cuts, c.coefficients.length = (stages t i).stateCount := by
      intro c hc
      rw [hcuts c hc, hstates t i p hp]
    rw [hsense]
    exact solve_isExactAt (q := { p with cuts := cuts }) hsolver hproper
      ⟨hcount, hanswer, hsize⟩ htheta hs hlengths h

end LinearStage

end Multistage
