/-
Multistage.Proofs.Policy.FutureValue — what the stages to come are worth.

Stage problems approximate the value of the stages to come by cuts.  The true
value is defined here without any, by recursion from the last stage backwards:
`Decisions` says what can be decided in a stage, `stageValue` is the best
objective that a stage and the stages after it can have together, and
`futureValue` is the risk of the stage values of the next stage.

`IsExactAt` says what an exact solution is of a stage problem with the cuts
that it has loaded.  If these cuts are valid, which means that they bound the
future value, then the line of the solution's objective and duals bounds the
stage value (`IsExactAt.line_below`).
-/
import Multistage.Policy.Backward
import Multistage.Proofs.Model.Construction
import Multistage.Proofs.Risk.Support

namespace Multistage

variable {K : Type} [Field K] [LinearOrder K]

/-! ## Measures and weights of a pair -/

/-- The measure that builds the cuts of a pair: what staged measures choose. -/
def Rule.resolve : Rule K → Option (Value × Value) → Rule K
  | staged select _, some (t, i) => (select t i).resolve none
  | staged _ fallback, none => fallback.resolve none
  | r, _ => r

namespace Model

/-- The measure of a stage and Markov state. -/
def ruleAt (m : Model K) (t i : Nat) : Rule K :=
  m.configuration.measure.rule.resolve (some (.int t, .int i))

/-- The scenario probabilities of a stage and Markov state as numbers. -/
def scenarioWeights (m : Model K) (t i : Nat) : List K :=
  ((m.configuration.scenarios.get? t i).map Tensor.entries).getD []

/-- The transition probabilities of a stage and Markov state. -/
def transitionWeights (m : Model K) (t i : Nat) : List K :=
  (m.configuration.transition.get? t i).getD []

/-- The probabilities with which a pair reaches the Markov states and scenarios
of the next stage. -/
def childWeights (m : Model K) (t i : Nat) : List K :=
  (m.outcomes (t + 1)).map fun (j, s) =>
    (m.transitionWeights t i).getD j 0 * (m.scenarioWeights (t + 1) j).getD s 0

end Model

/-! ## True values -/

/-- What the problems of a model decide about.  In a stage and Markov state,
for a scenario and an incoming state, an option is a choice of decisions, of
which only the stage's own objective and the outgoing state count.  A problem
may fall back on a bound of its own for the stages to come where the model has
none. -/
structure Decisions (K : Type) where
  options : Nat → Nat → Nat → Point K → Set (K × Point K)
  fallback : Nat → Nat → Option (Limit K) := fun _ _ => none

namespace Decisions

variable (D : Decisions K) (m : Model K)

/-- The objectives of options together with what comes after them, when every
outgoing state has a value. -/
def totals (future : Point K → K) (t i s : Nat) (x : Point K) : Set K :=
  {v | ∃ o ∈ D.options t i s x, v = o.1 + future o.2}

/-- The value of the stages to come, of which there are so many. -/
noncomputable def futureWithin : Nat → Nat → Nat → Point K → K
  | 0, _, _, _ => 0
  | n + 1, t, i, x =>
    (m.ruleAt t i).risk m.configuration.sense (m.childWeights t i)
      ((m.outcomes (t + 1)).map fun (j, s) =>
        m.configuration.sense.best (D.totals (futureWithin n (t + 1) j) (t + 1) j s x))

/-- The true value of the stages after a stage, seen from its outgoing state. -/
noncomputable def futureValue (t i : Nat) (x : Point K) : K :=
  D.futureWithin m (m.stageCount - (t + 1)) t i x

/-- The true value of a stage and the stages after it, for a scenario, at an
incoming state. -/
noncomputable def stageValue (t i s : Nat) (x : Point K) : K :=
  m.configuration.sense.best (D.totals (D.futureValue m t i) t i s x)

/-- The true values of the first stage's scenarios at the initial state. -/
noncomputable def firstValues (i : Nat) : List K :=
  (List.range (m.scenarioWeights 0 i).length).map fun s =>
    D.stageValue m 0 i s m.configuration.initialState

/-- The true value of the model: the expectation of the first stage's values. -/
noncomputable def optimalValue : K :=
  Risk.expectation m.configuration.initial
    ((List.range m.markovCount).map fun i =>
      Risk.expectation (m.scenarioWeights 0 i) (D.firstValues m i))

/-- A cut that bounds the future value of a pair at every state. -/
def IsValidCut (t i : Nat) (c : Cut K) : Prop :=
  ∀ x : Point K, x.length = m.configuration.initialState.length →
    ∃ a, c.value x = .ok a ∧ m.configuration.sense.below a (D.futureValue m t i x)

/-! ## Approximate values -/

/-- The values to come that a problem allows for an outgoing state: none in the
last stage, else all beyond the bound and the loaded cuts. -/
def Admits (p : StageProblem K) (t i : Nat) (y : Point K) (theta : K) : Prop :=
  if p.setting.final then theta = 0
  else (∀ b, p.setting.bound.or (D.fallback t i) = some b → p.setting.sense.bounds b theta) ∧
    ∀ c ∈ p.cuts, p.setting.sense.below (c.eval y) theta

/-- The objectives of options together with values to come that a problem
allows. -/
def approximations (p : StageProblem K) (t i s : Nat) (x : Point K) : Set K :=
  {v | ∃ o ∈ D.options t i s x, ∃ theta, D.Admits p t i o.2 theta ∧ v = o.1 + theta}

/-- An exact solution of a problem at a state: the optimum with the bound and
the cuts that are loaded, with duals that are a slope of the optimum. -/
structure IsExactAt (p : StageProblem K) (t i s : Nat) (x : Point K) (sol : StageSolution K) :
    Prop where
  best : p.setting.sense.IsBest (D.approximations p t i s x) sol.objective
  dimension : sol.duals.length = x.length
  slope : ∀ y : Point K, y.length = x.length → ∀ v ∈ D.approximations p t i s y,
    p.setting.sense.below
      (sol.objective + Scalar.dot sol.duals (List.zipWith (· - ·) y x)) v

end Decisions

/-! ## What is taken for granted -/

/-- Numbers that are not negative and add up to one. -/
def IsDistribution (v : List K) : Prop := (∀ p ∈ v, 0 ≤ p) ∧ v.sum = 1

/-- The probabilities of a model are distributions, and every pair that gets
cuts has a coherent measure. -/
structure Model.IsStochastic (m : Model K) : Prop where
  scenarios : ∀ t i q, m.configuration.scenarios.get? t i = some q →
    ∃ v, q = Tensor.vector v ∧ IsDistribution v
  transition : ∀ t i row, m.configuration.transition.get? t i = some row → row.sum = 1
  measures : ∀ t i, t + 1 < m.stageCount → i < m.markovCount → (m.ruleAt t i).IsCoherent

/-- There are optima at every state, and the bounds on the value to come and
the cuts that a builder may have loaded are valid. -/
structure Decisions.IsBounded (D : Decisions K) (m : Model K) : Prop where
  optimum : ∀ t i s, (i, s) ∈ m.outcomes t → ∀ x : Point K,
    x.length = m.configuration.initialState.length →
      ∃ v, m.configuration.sense.IsBest (D.totals (D.futureValue m t i) t i s x) v
  bound : ∀ t i, t + 1 < m.stageCount → i < m.markovCount → ∀ b,
    m.configuration.bound.or (D.fallback t i) = some b → ∀ x : Point K,
      x.length = m.configuration.initialState.length →
        m.configuration.sense.bounds b (D.futureValue m t i x)
  cuts : ∀ t i p, m.problems.get? t i = some p → ∀ c ∈ p.cuts, D.IsValidCut m t i c

/-- Decisions describe the problems of a model: whatever cuts a problem is
loaded with, its solutions are exact. -/
structure Decisions.Describes (D : Decisions K) (m : Model K) : Prop extends D.IsBounded m where
  dimension : ∀ t i s, (i, s) ∈ m.outcomes t → ∀ x : Point K,
    x.length = m.configuration.initialState.length → ∀ o ∈ D.options t i s x,
      o.2.length = m.configuration.initialState.length
  solutions : ∀ t i p, m.problems.get? t i = some p → ∀ s, (i, s) ∈ m.outcomes t →
    ∀ cuts : List (Cut K), (∀ c ∈ cuts,
        c.coefficients.length = m.configuration.initialState.length) →
      ∀ (x : Point K) (sol : StageSolution K), { p with cuts := cuts }.solve x (s : Nat) = .ok sol →
        D.IsExactAt { p with cuts := cuts } t i s x sol

/-! ## The recursion of values -/

namespace Model

theorem mem_outcomes {α : Type} {m : Model α} {t i s : Nat} :
    (i, s) ∈ m.outcomes t ↔
      i < m.markovCount ∧ ∃ q, m.configuration.scenarios.get? t i = some q ∧ s < q.size := by
  unfold outcomes
  rw [List.mem_flatMap]
  constructor
  · rintro ⟨j, hj, hmem⟩
    obtain ⟨s', hs', hpair⟩ := List.mem_map.mp hmem
    cases hpair
    refine ⟨List.mem_range.mp hj, ?_⟩
    cases hq : m.configuration.scenarios.get? t i with
    | none => simp [hq] at hs'
    | some q => exact ⟨q, rfl, by simpa [hq] using hs'⟩
  · rintro ⟨hi, q, hq, hs⟩
    exact ⟨i, List.mem_range.mpr hi, List.mem_map.mpr ⟨s, by simpa [hq] using hs, rfl⟩⟩

end Model

namespace Decisions

variable {D : Decisions K} {m : Model K}

theorem futureValue_last {t : Nat} (h : m.stageCount ≤ t + 1) (i : Nat) (x : Point K) :
    D.futureValue m t i x = 0 := by
  rw [futureValue, Nat.sub_eq_zero_of_le h, futureWithin]

/-- The future value is the risk of the next stage's values. -/
theorem futureValue_eq {t : Nat} (h : t + 1 < m.stageCount) (i : Nat) (x : Point K) :
    D.futureValue m t i x
      = (m.ruleAt t i).risk m.configuration.sense (m.childWeights t i)
          ((m.outcomes (t + 1)).map fun (j, s) => D.stageValue m (t + 1) j s x) := by
  have hcount : m.stageCount - (t + 1) = m.stageCount - (t + 1 + 1) + 1 := by omega
  rw [futureValue, hcount, futureWithin]
  rfl

/-! ## Valid cuts -/

theorem isValidCut_iff {t i : Nat} {c : Cut K} :
    D.IsValidCut m t i c ↔
      c.coefficients.length = m.configuration.initialState.length ∧
        ∀ x : Point K, x.length = m.configuration.initialState.length →
          m.configuration.sense.below (c.eval x) (D.futureValue m t i x) := by
  constructor
  · intro h
    have hlen : c.coefficients.length = m.configuration.initialState.length := by
      obtain ⟨a, ha, -⟩ := h _ rfl
      unfold Cut.value at ha
      split at ha
      · rename_i hcount
        exact hcount
      · cases ha
    refine ⟨hlen, fun x hx => ?_⟩
    obtain ⟨a, ha, hbelow⟩ := h x hx
    rw [Cut.value_eq (hlen.trans hx.symm)] at ha
    cases ha
    exact hbelow
  · rintro ⟨hlen, hbelow⟩ x hx
    exact ⟨c.eval x, Cut.value_eq (hlen.trans hx.symm), hbelow x hx⟩

/-- With valid cuts the true value of an outgoing state is one of those that a
problem allows. -/
theorem admits_futureValue (hD : D.Describes m) {p : StageProblem K} {t i : Nat}
    (hi : i < m.markovCount) (ht : t < m.stageCount)
    (hsense : p.setting.sense = m.configuration.sense)
    (hfinal : p.setting.final = (t + 1 == m.stageCount))
    (hbound : p.setting.bound = m.configuration.bound)
    (hcuts : ∀ c ∈ p.cuts, D.IsValidCut m t i c) {y : Point K}
    (hy : y.length = m.configuration.initialState.length) :
    D.Admits p t i y (D.futureValue m t i y) := by
  unfold Admits
  rw [hfinal, hsense, hbound]
  by_cases hlast : t + 1 = m.stageCount
  · rw [if_pos (by simpa using hlast)]
    exact futureValue_last hlast.ge i y
  · rw [if_neg (by simpa using hlast)]
    refine ⟨fun b hb => hD.bound t i (by omega) hi b hb y hy, fun c hc => ?_⟩
    exact (isValidCut_iff.mp (hcuts c hc)).2 y hy

/-- The line of an exact solution's objective and duals bounds the stage value
at every state, if the cuts of the problem are valid. -/
theorem IsExactAt.line_below {built : Grid (StageProblem K)} (hm : m.IsMadeOf built)
    (hD : D.Describes m) {p : StageProblem K} {t i s : Nat} (hmem : (i, s) ∈ m.outcomes t)
    (hsense : p.setting.sense = m.configuration.sense)
    (hfinal : p.setting.final = (t + 1 == m.stageCount))
    (hbound : p.setting.bound = m.configuration.bound)
    (hcuts : ∀ c ∈ p.cuts, D.IsValidCut m t i c) {x : Point K}
    (hx : x.length = m.configuration.initialState.length) {sol : StageSolution K}
    (h : D.IsExactAt p t i s x sol) {y : Point K}
    (hy : y.length = m.configuration.initialState.length) :
    m.configuration.sense.below
      (sol.objective + Scalar.dot sol.duals (List.zipWith (· - ·) y x))
      (D.stageValue m t i s y) := by
  obtain ⟨hi, q, hq, -⟩ := Model.mem_outcomes.mp hmem
  have ht : t < m.stageCount := ((Grid.get?_isSome hm.scenarios).mp ⟨q, hq⟩).1
  obtain ⟨⟨o, ho, hvalue⟩, -⟩ := Sense.best_isBest (hD.optimum t i s hmem y hy)
  rw [← hsense]
  refine h.slope y (hy.trans hx.symm) _ ⟨o, ho, D.futureValue m t i o.2, ?_, hvalue⟩
  exact admits_futureValue hD hi ht hsense hfinal hbound hcuts (hD.dimension t i s hmem y hy o ho)

end Decisions

end Multistage
