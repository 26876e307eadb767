/-
Multistage.Proofs.Round.Reachable — cuts and bounds along whole runs.

A coordinator reaches a state by rounds of every kind, in any order, with any
arguments and any schedule, whether they succeed or fail, by training and simulating
its model, and by operations on the model between rounds (`Coordinator.Reaches`).  From
such a state, workers make models of their own and go through states of these
(`Coordinator.IsPrivate`).  In all of these models every cut, stored or loaded, bounds
the future value of its stage and Markov state, and so does the bound of the whole
problem (`reaches_isValid`).  Models of linear stages are among them
(`linearValley_reaches_isValid`).
-/
import Mathlib.Tactic.NormNum
import Mathlib.Tactic.Positivity
import Multistage.Proofs.Policy.Linear
import Multistage.Proofs.Training.Soundness

namespace Multistage

variable {K : Type} [Field K] [LinearOrder K] [Quantiles K]

/-! ## States -/

/-- What an operation makes of a model that draws no part in a round: a backward
pass with any random numbers, cuts at any state, loading, solving the first
stage, and computing figures. -/
inductive Model.Becomes (m : Model K) : Model K → Prop where
  | pass (draws : Draws K) : Becomes m (backwardPass.perform ⟨m, draws⟩).2.model
  | cuts (t : Nat) (x : Point K) : Becomes m ((Model.addStageCuts t x).perform m).2
  | load (selection : Selection) (recount : Bool) :
    Becomes m ((Model.reload selection recount).perform m).2
  | solve : Becomes m (Model.solveFirstStage.perform m).2
  | bound : Becomes m (Model.setBound.perform m).2
  | interval (samples : List K) : Becomes m ((Model.setInterval samples).perform m).2

namespace Coordinator

/-- The states that coordinators of a model can reach. -/
inductive Reaches [Seeded K] (m : Model K) : Coordinator K → Prop where
  | start (pool : Pool) (seed timeout : Value) : Reaches m (.start m pool seed timeout)
  | restart {c : Coordinator K} (h : Reaches m c) (pool : Pool) (seed timeout : Value) :
    Reaches m (.start c.model pool seed timeout)
  | refresh {c : Coordinator K} (h : Reaches m c) : Reaches m c.refresh
  | backward {c : Coordinator K} (h : Reaches m c) (n : Value) (selection : Selection)
    (due : Nat → Except Failure Bool) (schedule : Schedule) :
    Reaches m ((backwardRound n selection due schedule).perform c).2
  | forward {c : Coordinator K} (h : Reaches m c) (n : Value)
    (judge : Model K → Except Failure Bool) (schedule : Schedule) :
    Reaches m ((forwardRound n judge schedule).perform c).2
  | simulate {c : Coordinator K} (h : Reaches m c) (n : Value) (requested : List Value)
    (schedule : Schedule) : Reaches m ((simulate n requested schedule).perform c).2
  | operate {c : Coordinator K} (h : Reaches m c) {m' : Model K} (hm : c.model.Becomes m') :
    Reaches m { c with model := m' }
  | train {c : Coordinator K} (h : Reaches m c) (plan : Plan K) (pool : Pool) (clock : Nat → K) :
    Reaches m { c with model := ((Model.train plan pool clock).perform c.model).2 }
  | simulateWith {c : Coordinator K} (h : Reaches m c) (pool : Pool) (seed n : Value)
    (requested : List Value) :
    Reaches m { c with model := ((Model.simulateWith pool seed n requested).perform c.model).2 }

/-- The states of the models that workers of a coordinator make in a round. -/
inductive IsPrivate (c : Coordinator K) : Model K → Prop where
  | make {passes : Int} {seed : Value} {m : Model K}
    (h : (c.assignment passes seed).ownModel = .ok m) : IsPrivate c m
  | operate {m m' : Model K} (h : IsPrivate c m) (hm : m.Becomes m') : IsPrivate c m'

end Coordinator

/-! ## Validity -/

namespace Decisions

variable {D : Decisions K} {m₀ : Model K}

variable (D m₀) in
/-- All cuts of a model, stored and loaded, bound the future values of the model
as it was made, and its bound lies below the true value. -/
structure IsValid (m : Model K) : Prop where
  stored : ∀ t i s, m.stores.get? t i = some s → ∀ c ∈ s.cuts, D.IsValidCut m₀ t i c
  loaded : ∀ t i p, m.problems.get? t i = some p → ∀ c ∈ p.cuts, D.IsValidCut m₀ t i c
  bound : ∀ b, m.figures.bound = some b → m₀.configuration.sense.below b (D.optimalValue m₀)

omit [Quantiles K] in
theorem IsSound.isValid {m : Model K} (h : D.IsSound m₀ m) : D.IsValid m₀ m := by
  refine ⟨h.stored, fun t i p hp => ?_, h.bound⟩
  obtain ⟨p₀, cuts, -, rfl, hcuts⟩ := h.problems t i p hp
  exact hcuts

section Runs

variable [IsStrictOrderedRing K] {built : Grid (StageProblem K)} (hm₀ : m₀.IsMadeOf built)
  (hs : m₀.IsStochastic) (hD : D.Describes m₀)

include hm₀ hs hD

theorem becomes_sound {m m' : Model K} (h : m.Becomes m') (hm : D.IsSound m₀ m) :
    D.IsSound m₀ m' := by
  cases h with
  | pass draws => exact (backwardPass_sound hm₀ hs hD ⟨m, draws⟩ hm).1
  | cuts t x => exact (addStageCuts_sound hm₀ hs hD t x m hm).1
  | load selection recount => exact (reload_sound selection recount m hm).1
  | solve => exact (solveFirstStage_sound hm₀ hs hD m hm).1
  | bound => exact (setBound_sound hm₀ hs hD m hm).1
  | interval samples => exact (setInterval_sound samples m hm).1

theorem reaches_run [Seeded K] {c : Coordinator K} (h : c.Reaches m₀) : D.IsRun m₀ c := by
  induction h with
  | start pool seed timeout => exact start_run hm₀ hD pool seed timeout
  | restart h pool seed timeout ih => exact ⟨ih.1, ih.1.configuration⟩
  | refresh h ih => exact refresh_run ih
  | backward h n selection due schedule ih =>
    exact (backwardRound_run hm₀ hs hD n selection due schedule _ ih).1
  | forward h n judge schedule ih => exact (forwardRound_run n judge schedule _ ih).1
  | simulate h n requested schedule ih => exact (simulate_run n requested schedule _ ih).1
  | operate h hm ih => exact ⟨becomes_sound hm₀ hs hD hm ih.1, ih.2⟩
  | train h plan pool clock ih =>
    exact ⟨(train_sound hm₀ hs hD plan pool clock _ ih.1).1, ih.2⟩
  | simulateWith h pool seed n requested ih =>
    exact ⟨(simulateWith_sound pool seed n requested _ ih.1).1, ih.2⟩

theorem private_sound {c : Coordinator K} (hc : D.IsRun m₀ c) {m : Model K} (h : c.IsPrivate m) :
    D.IsSound m₀ m := by
  induction h with
  | make h => exact (ownModel_sound hm₀ hs hD hc.2 hc.1.stored h).1
  | operate h hm ih => exact becomes_sound hm₀ hs hD hm ih

end Runs

/-- In every state that a coordinator can reach from a model that a blueprint
makes, all cuts of its model and of its workers' models bound the future values
of their stages and Markov states, and every bound lies below the true value. -/
theorem reaches_isValid [IsStrictOrderedRing K] [Seeded K] {b : Blueprint K} {m : Model K}
    (hrect : ∀ t, b.transition = .ok (some t) → t.IsRectangular) (hm : b.model = .ok m)
    (hs : m.IsStochastic) (hD : D.Describes m) {c : Coordinator K} (hc : c.Reaches m) :
    D.IsValid m c.model ∧ ∀ p, c.IsPrivate p → D.IsValid m p := by
  obtain ⟨built, hbuilt⟩ := Blueprint.exists_built hrect hm
  have hrun := reaches_run hbuilt hs hD hc
  exact ⟨hrun.1.isValid, fun p hp => (private_sound hbuilt hs hD hrun hp).isValid⟩

/-! ## A valley -/

/-- The least value to come that a bound of zero and the cuts allow at the state
five. -/
def valleyTheta (t : Situation ℚ) : ℚ :=
  if t.setting.final then 0 else (t.cuts.map fun c => c.eval [5]).foldr max 0

/-- A slope of the size of a number. -/
def valleySlope (a : ℚ) : ℚ :=
  if a < 0 then -1 else 1

/-- A problem whose cost is the size of the incoming state, once or twice, and
whose outgoing state is five. -/
def valleyProblem : StageProblem ℚ where
  stateCount := 1
  probabilities := Tensor.vector [1 / 4, 3 / 4]
  answer t x k := .ok
    { objective := (k + 1) * |x.headD 0| + valleyTheta t
      stageObjective := (k + 1) * |x.headD 0|
      duals := [(k + 1) * valleySlope (x.headD 0)]
      state := [5] }

def valley : Blueprint ℚ where
  builder := some fun _ _ => .ok (.problem valleyProblem)
  stageCount := Given.exactly 2
  initialState := .ok [3]
  bound := .ok (some (.finite 0))
  confidence := Given.exactly (1 / 2)

def valleyProblemAt (t i : Nat) : StageProblem ℚ :=
  { valleyProblem with
    setting :=
      { final := t + 1 == 2, bound := some (.finite 0), stage := .int t, markovState := .int i } }

def valleyModel : Model ℚ where
  configuration :=
    { sense := .min, stageCount := 2, markovCount := 1, initialState := [3]
      transition := [[[1]]], initial := [1]
      scenarios := Grid.ofFn 2 1 fun _ _ => Tensor.vector [1 / 4, 3 / 4]
      confidence := 1 / 2, params := [], bound := some (.finite 0)
      measure := { rule := .expectation }
      builder := fun _ _ => .ok (.problem valleyProblem) }
  stateCount := 1
  problems := Grid.ofFn 2 1 valleyProblemAt
  stores := Grid.ofFn 2 1 fun _ _ => Store.empty 1

theorem valley_model : valley.model = .ok valleyModel := by
  have hconfidence : Blueprint.confidenceLevel valley.confidence = .ok (1 / 2) := by
    norm_num [Blueprint.confidenceLevel, valley, Given.exactly]
    rfl
  unfold Blueprint.model
  rw [hconfidence]
  rfl

/-! ## A valley of linear stages -/

/-- The stage of the valley as a linear program: what is paid for is the way up or down to
the incoming state, and five is passed on. -/
def valleyStage : LinearStage ℚ where
  decisions := 3
  costs := [[1, 1, 0], [2, 2, 0]]
  rows := [[1, -1, 0], [0, 0, 1]]
  inflow := [[-1], [0]]
  rhs := [[0, 5], [0, 5]]
  signs := [LP.RowSense.equal.sign, LP.RowSense.equal.sign]
  stateOut := [2]
  ranges := List.replicate 3 ⟨.finite 0, .posInf⟩
  names := ["up", "down", "on"]
  probabilities := Tensor.vector [1 / 4, 3 / 4]
  params := []

/-- The optimum at a state above zero, where the way costs so much, without cuts. -/
def valleyStart (cost x : ℚ) : LP.Optimum ℚ where
  point := [x, x, 0, 5, 0]
  value := cost * x
  equationMarginals := [cost, cost, 0]
  inequalityMarginals := []
  lowerMarginals := [0, 0, 2 * cost, 0, 1]
  upperMarginals := [0, 0, 0, 0, 0]

/-- The optimum with a cut of so much for the state that is passed on. -/
def valleyOptimum (cost x slope : ℚ) : LP.Optimum ℚ where
  point := [x, x, 0, 5, 5 * slope]
  value := cost * x + 5 * slope
  equationMarginals := [cost, cost, slope]
  inequalityMarginals := [-1]
  lowerMarginals := [0, 0, 2 * cost, 0, 0]
  upperMarginals := [0, 0, 0, 0, 0]

def valleySolver : LP.Solver ℚ :=
  .certified [valleyStart 1 3, valleyStart 1 5, valleyStart 2 5, valleyOptimum 1 3 (7 / 4),
    valleyOptimum 2 3 (7 / 4)]

def linearValley : Blueprint ℚ :=
  { valley with builder := some fun _ _ => .ok (.problem (valleyStage.problem valleySolver)) }

def linearValleyModel : Model ℚ where
  configuration :=
    { valleyModel.configuration with
      builder := fun _ _ => .ok (.problem (valleyStage.problem valleySolver)) }
  stateCount := 1
  problems := Grid.ofFn 2 1 fun t i =>
    { valleyStage.problem valleySolver with
      setting :=
        { final := t + 1 == 2, bound := some (.finite 0), stage := .int t, markovState := .int i } }
  stores := Grid.ofFn 2 1 fun _ _ => Store.empty 1

theorem linearValley_model : linearValley.model = .ok linearValleyModel := by
  have hconfidence : Blueprint.confidenceLevel linearValley.confidence = .ok (1 / 2) := by
    norm_num [Blueprint.confidenceLevel, linearValley, valley, Given.exactly]
    rfl
  unfold Blueprint.model
  rw [hconfidence]
  rfl

theorem linearValleyModel_isStochastic : linearValleyModel.IsStochastic where
  scenarios t i q hq := ⟨_, Grid.ofFn_eq_some hq, by norm_num, by norm_num⟩
  transition t i row hrow := by
    match t, i with
    | 0, 0 =>
      cases hrow
      norm_num
    | 0, i + 1 => cases hrow
    | t + 1, i => cases hrow
  measures _ _ _ _ := True.intro

theorem valleyStage_isProper : valleyStage.IsProper where
  regular := by constructor <;> decide
  nodup := by decide
  limits := by simp [valleyStage]

theorem valleyStage_isAllowed {a : ℚ} {y : List ℚ} :
    valleyStage.IsAllowed [a] [0, 5] y
      ↔ ∃ up down, 0 ≤ up ∧ 0 ≤ down ∧ up - down = a ∧ y = [up, down, 5] := by
  unfold LinearStage.IsAllowed
  constructor
  · rintro ⟨hrows, hranges⟩
    obtain ⟨up, _, hup, hlater, rfl⟩ := List.forall₂_cons_left_iff.mp hranges
    obtain ⟨down, _, hdown, hlast, rfl⟩ := List.forall₂_cons_left_iff.mp hlater
    obtain ⟨on, _, -, ⟨⟩, rfl⟩ := List.forall₂_cons_left_iff.mp hlast
    obtain ⟨hstate, rfl⟩ : -a + (up + -down) = 0 ∧ on = 5 := by
      simpa [valleyStage, LP.RowSense.Holds] using hrows
    exact ⟨up, down, hup.1, hdown.1, by linarith, rfl⟩
  · rintro ⟨up, down, hup, hdown, rfl, rfl⟩
    refine ⟨?_, .cons ⟨hup, trivial⟩ (.cons ⟨hdown, trivial⟩ (.cons ⟨?_, trivial⟩ .nil))⟩
    · simp [valleyStage, LP.RowSense.Holds]
      ring
    · norm_num [Limit.IsLower]

/-- What linear stages of the valley decide about. -/
def linearValleyDecisions : Decisions ℚ := .ofLinear (fun _ _ => valleyStage) .min

theorem linearValley_options (t i : Nat) {s : Nat} (hs : s < 2) (a : ℚ) :
    linearValleyDecisions.options t i s [a]
      = {o | ∃ up down, 0 ≤ up ∧ 0 ≤ down ∧ up - down = a ∧ o = ((s + 1) * (up + down), [5])} := by
  have hcosts : valleyStage.costs[s]? = some [(s : ℚ) + 1, s + 1, 0] := by
    match s, hs with
    | 0, _ => norm_num [valleyStage]
    | 1, _ => norm_num [valleyStage]
  have hrhs : valleyStage.rhs[s]? = some [0, 5] := by
    match s, hs with
    | 0, _ => rfl
    | 1, _ => rfl
  ext o
  constructor
  · rintro ⟨costs, rhs, y, hcosts', hrhs', hallowed, rfl⟩
    cases hcosts.symm.trans hcosts'
    cases hrhs.symm.trans hrhs'
    obtain ⟨up, down, hup, hdown, hstate, rfl⟩ := valleyStage_isAllowed.mp hallowed
    refine ⟨up, down, hup, hdown, hstate, Prod.ext ?_ rfl⟩
    simp
    ring
  · rintro ⟨up, down, hup, hdown, hstate, rfl⟩
    refine ⟨_, _, [up, down, 5], hcosts, hrhs,
      valleyStage_isAllowed.mpr ⟨up, down, hup, hdown, hstate, rfl⟩, Prod.ext ?_ rfl⟩
    simp
    ring

theorem linearValley_isBest (future : Point ℚ → ℚ) (t i : Nat) {s : Nat} (hs : s < 2) (a : ℚ) :
    Sense.min.IsBest (linearValleyDecisions.totals future t i s [a])
      ((s + 1) * |a| + future [5]) := by
  unfold totals
  rw [linearValley_options t i hs]
  constructor
  · refine ⟨_, ⟨max a 0, max (-a) 0, le_max_right .., le_max_right .., ?_, rfl⟩, ?_⟩
    · rcases le_total a 0 with ha | ha <;> simp [ha]
    · rcases le_total a 0 with ha | ha <;> simp [ha, abs_of_nonpos, abs_of_nonneg]
  · rintro _ ⟨_, ⟨up, down, hup, hdown, rfl, rfl⟩, rfl⟩
    have hsize : |up - down| ≤ up + down := abs_le.mpr ⟨by linarith, by linarith⟩
    have hweight : (0 : ℚ) ≤ s + 1 := by positivity
    have hcost := mul_le_mul_of_nonneg_left hsize hweight
    show _ + _ ≤ _ + _
    linarith

/-- In the last stage the distance from zero is paid `s + 1` times. -/
theorem linearValley_stageValue {s : Nat} (hs : s < 2) (a : ℚ) :
    linearValleyDecisions.stageValue linearValleyModel 1 0 s [a] = (s + 1) * |a| := by
  have hbest := (linearValley_isBest
    (linearValleyDecisions.futureValue linearValleyModel 1 0) 1 0 hs a).best_eq
  rw [futureValue_last le_rfl, add_zero] at hbest
  exact hbest

theorem linearValley_futureValue_nonneg (a : ℚ) :
    0 ≤ linearValleyDecisions.futureValue linearValleyModel 0 0 [a] := by
  have hweights : linearValleyModel.childWeights 0 0 = [1 * (1 / 4), 1 * (3 / 4)] := rfl
  have houtcomes : linearValleyModel.outcomes 1 = [(0, 0), (0, 1)] := rfl
  rw [futureValue_eq (by decide), hweights, houtcomes]
  show 0 ≤ Risk.expectation _
    [linearValleyDecisions.stageValue linearValleyModel 1 0 (0 : Nat) [a],
      linearValleyDecisions.stageValue linearValleyModel 1 0 (1 : Nat) [a]]
  rw [linearValley_stageValue (by decide), linearValley_stageValue (by decide), Risk.expectation]
  simp only [List.zipWith_cons_cons, List.zipWith_nil_left, List.sum_cons, List.sum_nil]
  positivity

theorem linearValley_describes : linearValleyDecisions.Describes linearValleyModel := by
  obtain ⟨built, hbuilt⟩ := Blueprint.exists_built (by rintro t ⟨⟩) linearValley_model
  have hscenario : ∀ t i s, (i, s) ∈ linearValleyModel.outcomes t → s < 2 := by
    intro t i s hmem
    obtain ⟨-, q, hq, hs⟩ := Model.mem_outcomes.mp hmem
    rwa [Grid.ofFn_eq_some hq] at hs
  have hsolver : valleySolver.IsExact := LP.Solver.certified_isExact _
  refine LinearStage.ofLinear_describes hsolver hbuilt (fun t i p hp => ?_)
    { optimum := ?_, bound := ?_, cuts := ?_ }
  · rw [Grid.ofFn_eq_some hp]
    exact ⟨⟨rfl, rfl, rfl⟩, valleyStage_isProper⟩
  · intro t i s hmem x hx
    obtain ⟨a, rfl⟩ := List.length_eq_one_iff.mp hx
    exact ⟨_, linearValley_isBest _ t i (hscenario t i s hmem) a⟩
  · intro t i ht hi b hb x hx
    have ht' : t + 1 < 2 := ht
    have hi' : i < 1 := hi
    obtain rfl : t = 0 := by omega
    obtain rfl : i = 0 := by omega
    obtain ⟨a, rfl⟩ := List.length_eq_one_iff.mp hx
    cases hb
    exact linearValley_futureValue_nonneg a
  · intro t i p hp c hc
    rw [Grid.ofFn_eq_some hp] at hc
    cases hc

/-- A plan of one round. -/
def singleRound : Plan ℚ where
  logLevel := .ok none
  selection := .all
  rounds := .ok 1
  seed := .int 7
  timeout := .null
  backwardPasses := .int 1
  selectsAnew _ := .ok false
  forwardPasses := .int 1
  tests _ := .ok false
  judge _ := .ok false
  reports _ := .ok false
  line _ := .ok ""
  isOver _ := false

/-- After one round of training there is a cut of the first stage, the expected size of the
state, and the bound is the optimum. -/
theorem linearValley_reaches_isValid :
    let _ : Quantiles ℚ := ⟨id, fun level _ => level⟩
    let _ : Seeded ℚ := ⟨fun _ => .cycle 0 []⟩
    let training := (Model.train singleRound ⟨.serial, 1⟩ fun _ => 0).perform linearValleyModel
    (training.1.isOk, training.2.figures.bound) = (true, some 14) ∧
      (training.2.stores.get? 0 0).map
        (fun s => s.cuts.map fun c => (c.intercept, c.coefficients)) = some [(0, [7 / 4])] ∧
      linearValleyDecisions.IsValid linearValleyModel training.2 := by
  intro _ _ training
  refine ⟨by decide +kernel, by decide +kernel, ?_⟩
  have hreaches : Coordinator.Reaches linearValleyModel
      { Coordinator.start linearValleyModel ⟨.serial, 1⟩ .null .null with model := training.2 } :=
    .train (.start ⟨.serial, 1⟩ .null .null) singleRound ⟨.serial, 1⟩ fun _ => 0
  exact (reaches_isValid (by rintro t ⟨⟩) linearValley_model linearValleyModel_isStochastic
    linearValley_describes hreaches).1

end Decisions

end Multistage
