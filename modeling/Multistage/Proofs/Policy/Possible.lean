/-
Multistage.Proofs.Policy.Possible — sampled paths stay within the support.

An index that is drawn has weight (`indexOf_spec`), whatever zeros stand around it.  So a
path goes through Markov states and scenarios of positive probability only, each stage
being solved where the stage before it has led (`Model.IsPossible`).  The induction is on
the stages that are left: `visits_spec` says how the first visit of a part of a path starts
and how every later one continues.
-/
import Multistage.Proofs.Grid
import Multistage.Proofs.Policy.Trajectory
import Multistage.Proofs.Random.Sampling
import Mathlib.Algebra.Order.Ring.Rat

namespace Multistage

variable {K : Type} [Field K] [LinearOrder K]

/-! ## Possible paths -/

/-- Whether all numbers of a stream are in `[0, 1)`. -/
def Draws.IsUnit (d : Draws K) : Prop := ∀ k, 0 ≤ d.sequence k ∧ d.sequence k < 1

/-- Whether an entry of a vector is positive. -/
def HasWeight (p : List K) (k : Nat) : Prop := ∃ a, p[k]? = some a ∧ 0 < a

namespace Model

/-- Models whose initial distribution, transition rows and scenario vectors are not
negative, each with some mass. -/
structure HasMass (m : Model K) : Prop where
  initial : Multistage.HasMass m.configuration.initial
  transition : ∀ t i row, m.configuration.transition.get? t i = some row → Multistage.HasMass row
  scenarios : ∀ t i q, m.configuration.scenarios.get? t i = some q →
    ∃ v, q = Tensor.vector v ∧ Multistage.HasMass v

/-- A visit of a stage at a state: its scenario is possible there, and the problem of the
stage has been solved at the state for the scenario. -/
structure IsVisit (m : Model K) (t : Nat) (x : Point K) (v : Visit K) : Prop where
  scenario : ∃ q, m.configuration.scenarios.get? t v.markov = some (Tensor.vector q) ∧
    HasWeight q v.scenario
  solution : ∃ p, m.problems.get? t v.markov = some p ∧ p.solve x v.scenario = .ok v.solution

/-- A visit of a stage after one of the stage before: its Markov state is possible after the
earlier one, and it starts where the earlier one has led. -/
structure IsNext (m : Model K) (t : Nat) (v w : Visit K) : Prop
    extends m.IsVisit (t + 1) v.solution.state w where
  markov : ∃ row, m.configuration.transition.get? t v.markov = some row ∧ HasWeight row w.markov

/-- A path of possible visits, one for every stage, from the initial state on. -/
structure IsPossible (m : Model K) (path : Trajectory K) : Prop where
  length : path.length = m.stageCount
  first : ∀ v, path[0]? = some v → HasWeight m.configuration.initial v.markov ∧
    m.IsVisit 0 m.configuration.initialState v
  next : ∀ t v w, path[t]? = some v → path[t + 1]? = some w → m.IsNext t v w

variable [IsStrictOrderedRing K] {m : Model K}

theorem sampleIndex_hasWeight {p : List K} (hp : Multistage.HasMass p) {d d' : Draws K}
    (hd : d.IsUnit) {k : Nat} (h : (sampleIndex p).perform d = (.ok k, d')) :
    HasWeight p k ∧ d'.IsUnit := by
  obtain ⟨hindex, rfl⟩ := sampleIndex_eq_ok.mp h
  obtain ⟨hu0, hu1⟩ := hd d.position
  exact ⟨((indexOf_eq_some_iff hp hu0 hu1).mp hindex).exists_pos, hd⟩

theorem sampleLeading_hasWeight {q : List K} (hq : Multistage.HasMass q) {d d' : Draws K}
    (hd : d.IsUnit) {k : Nat} (h : (sampleLeading (Tensor.vector q)).perform d = (.ok k, d')) :
    HasWeight q k ∧ d'.IsUnit := by
  obtain ⟨j, d₁, hdraw, hk⟩ := Transition.perform_bind_eq_ok.mp h
  obtain ⟨hweight, hd₁⟩ := sampleIndex_hasWeight hq hd hdraw
  cases hk
  obtain ⟨a, ha, -⟩ := id hweight
  -- an index of the vector is never cut back
  have hj : j ≤ q.length - 1 := Nat.le_sub_one_of_lt (List.getElem?_eq_some_iff.mp ha).1
  have hsame : Nat.min j (q.length - 1) = j := Nat.min_eq_left hj
  rw [hsame]
  exact ⟨hweight, hd₁⟩

theorem Makes.isVisit (hm : m.HasMass) {t : Nat} {x : Point K} {v : Visit K} {d d' : Draws K}
    (hd : d.IsUnit) (h : m.Makes t x v d d') : m.IsVisit t x v ∧ d'.IsUnit := by
  obtain ⟨⟨q, hq, hscenario⟩, hsolution⟩ := h
  have hentry := Grid.entry_eq_ok.mp hq
  obtain ⟨weights, rfl, hweights⟩ := hm.scenarios t v.markov q hentry
  obtain ⟨hweight, hd'⟩ := sampleLeading_hasWeight hweights hd hscenario
  obtain ⟨p, hp, hsolve⟩ := bind_eq_ok.mp hsolution
  exact ⟨⟨⟨weights, hentry, hweight⟩, p, Grid.entry_eq_ok.mp hp, hsolve⟩, hd'⟩

theorem Moves.hasWeight (hm : m.HasMass) {t i j : Nat} {d d' : Draws K} (hd : d.IsUnit)
    (h : m.Moves t i j d d') :
    (∃ row, m.configuration.transition.get? t i = some row ∧ HasWeight row j) ∧ d'.IsUnit := by
  obtain ⟨row, hrow, hnext⟩ := h
  have hentry := Grid.entry_eq_ok.mp hrow
  obtain ⟨hweight, hd'⟩ := sampleIndex_hasWeight (hm.transition t i row hentry) hd hnext
  exact ⟨⟨row, hentry, hweight⟩, hd'⟩

/-- The visits of some stages: the first one is a visit at the given state, and each later
one is next to the one before it. -/
theorem visits_spec (hm : m.HasMass) {n t i : Nat} {x : Point K} {d d' : Draws K}
    {path : List (Visit K)} (hd : d.IsUnit) (h : (m.visits n t i x).perform d = (.ok path, d')) :
    (∀ v, path[0]? = some v → v.markov = i ∧ m.IsVisit t x v) ∧
      ∀ k v w, path[k]? = some v → path[k + 1]? = some w → m.IsNext (t + k) v w := by
  induction n generalizing t i x d path with
  | zero =>
    cases h
    simp
  | succ n ih =>
    obtain ⟨v, d₁, later, rfl, rfl, hmakes, hlater⟩ := visits_succ_eq_ok h
    obtain ⟨hvisit, hd₁⟩ := hmakes.isVisit hm hd
    refine ⟨by simpa using hvisit, ?_⟩
    rcases hlater with ⟨-, rfl, -⟩ | ⟨-, j, d₂, hmoves, hlater⟩
    · simp
    · obtain ⟨hmarkov, hd₂⟩ := hmoves.hasWeight hm hd₁
      obtain ⟨hfirst, hrest⟩ := ih hd₂ hlater
      intro k u w hu hw
      cases k with
      | zero =>
        cases hu
        obtain ⟨rfl, hw⟩ := hfirst w hw
        exact { hw with markov := hmarkov }
      | succ k =>
        have hshift : t + (k + 1) = t + 1 + k := by omega
        rw [hshift]
        exact hrest k u w hu hw

theorem trajectory_isPossible (hm : m.HasMass) {d d' : Draws K} (hd : d.IsUnit)
    {path : Trajectory K} (h : m.trajectory.perform d = (.ok path, d')) : m.IsPossible path := by
  have hlength := length_trajectory h
  obtain ⟨first, d₁, hfirst, hvisits⟩ := Transition.perform_bind_eq_ok.mp h
  obtain ⟨hweight, hd₁⟩ := sampleIndex_hasWeight hm.initial hd hfirst
  obtain ⟨hstart, hnext⟩ := visits_spec hm hd₁ hvisits
  refine ⟨hlength, fun v hv => ?_, fun t v w hv hw => ?_⟩
  · obtain ⟨rfl, hvisit⟩ := hstart v hv
    exact ⟨hweight, hvisit⟩
  · simpa using hnext t v w hv hw

/-- A number in `[0, 1)` draws the one index into whose interval it falls, which has weight;
the numbers that draw an index form an interval as long as its share in the mass.  So a path
that is sampled to its end is possible throughout. -/
theorem sampling_follows_distribution :
    (∀ p : List K, Multistage.HasMass p →
      (∀ u : K, 0 ≤ u → u < 1 → ∃ k, HasWeight p k ∧ (∀ j, FallsInto p u j ↔ j = k) ∧
        ∀ d : Draws K, d.sequence d.position = u →
          (sampleIndex p).perform d = (.ok k, { d with position := d.position + 1 })) ∧
      ∀ k a, p[k]? = some a → {u | 0 ≤ u ∧ u < 1 ∧ indexOf p u = some k}
        = Set.Ico (massBefore p k / p.sum) (massBefore p k / p.sum + a / p.sum)) ∧
    ∀ (m : Model K) (d d' : Draws K) (path : Trajectory K), m.HasMass → d.IsUnit →
      m.trajectory.perform d = (.ok path, d') → m.IsPossible path := by
  refine ⟨fun p hp => ⟨fun u hu0 hu1 => ?_, fun k a hk => setOf_indexOf hp hk⟩,
    fun m d d' path hm hd h => trajectory_isPossible hm hd h⟩
  obtain ⟨k, hindex, hfalls⟩ := indexOf_spec hp hu0 hu1
  refine ⟨k, hfalls.exists_pos, fun j => ⟨fun hj => hj.unique hp hfalls, ?_⟩, ?_⟩
  · rintro rfl
    exact hfalls
  · rintro d rfl
    exact sampleIndex_eq_ok.mpr ⟨hindex, rfl⟩

/-- A stage with five scenarios, three of them impossible, that adds the number of the
scenario to the state. -/
def crossing : StageProblem ℚ where
  stateCount := 1
  probabilities := Tensor.vector [0, 1 / 4, 0, 3 / 4, 0]
  answer _ x k := .ok
    { objective := k, stageObjective := k, duals := [0], state := x.map (· + k) }

/-- Three stages with two Markov states, of which the next one is certain at most places. -/
def crossingModel : Model ℚ where
  configuration :=
    { sense := .min, stageCount := 3, markovCount := 2, initialState := [1]
      transition := [[[1 / 2, 1 / 2], [1, 0]], [[0, 1], [1, 0]]], initial := [0, 1]
      scenarios := Grid.ofFn 3 2 fun _ _ => crossing.probabilities
      confidence := 1 / 2, params := [], bound := none, measure := { rule := .expectation }
      builder := fun _ _ => .ok (.problem crossing) }
  stateCount := 1
  problems := Grid.ofFn 3 2 fun _ _ => crossing
  stores := Grid.ofFn 3 2 fun _ _ => Store.empty 1

theorem crossingModel_hasMass : crossingModel.HasMass where
  initial := ⟨by decide, by norm_num [crossingModel]⟩
  transition t i row hrow := by
    have hall : ∀ rows ∈ crossingModel.configuration.transition, ∀ row ∈ rows,
        (∀ a ∈ row, (0 : ℚ) ≤ a) ∧ 0 < row.sum := by decide +kernel
    obtain ⟨rows, hrows, hrow⟩ := Grid.get?_eq_some.mp hrow
    obtain ⟨hnonneg, hmass⟩ :=
      hall rows (List.mem_of_getElem? hrows) row (List.mem_of_getElem? hrow)
    exact ⟨hnonneg, hmass⟩
  scenarios t i q hq := ⟨_, Grid.ofFn_eq_some hq, by decide +kernel, by decide +kernel⟩

/-- The number one quarter, at which the second scenario ends and the fourth one starts,
draws the fourth one; the path that it draws alternates between the Markov states. -/
theorem sampling_follows_crossing :
    (∃ k, HasWeight [0, (1 / 4 : ℚ), 0, 3 / 4, 0] k ∧
      ∀ j, FallsInto [0, (1 / 4 : ℚ), 0, 3 / 4, 0] (1 / 4) j ↔ j = k) ∧
    FallsInto [0, (1 / 4 : ℚ), 0, 3 / 4, 0] (1 / 4) 3 ∧
    ∃ path, (crossingModel.trajectory.perform (.cycle (1 / 4) [])).1 = .ok path ∧
      path.map Visit.markov = [1, 0, 1] ∧ crossingModel.IsPossible path := by
  obtain ⟨hindex, hpath⟩ := sampling_follows_distribution (K := ℚ)
  obtain ⟨k, hweight, hfalls, -⟩ := (hindex [0, 1 / 4, 0, 3 / 4, 0]
    ⟨by decide +kernel, by decide +kernel⟩).1 (1 / 4) (by norm_num) (by norm_num)
  refine ⟨⟨k, hweight, hfalls⟩, by norm_num [FallsInto, massBefore], ?_⟩
  have hmarkov : ((crossingModel.trajectory.perform (.cycle (1 / 4) [])).1.map
      (List.map Visit.markov)).toOption = some [1, 0, 1] := by decide +kernel
  cases hrun : crossingModel.trajectory.perform (.cycle (1 / 4) []) with
  | mk outcome d =>
    rw [hrun] at hmarkov
    cases outcome with
    | error e => cases hmarkov
    | ok path =>
      refine ⟨path, rfl, Option.some.inj hmarkov, hpath _ _ _ path crossingModel_hasMass ?_ hrun⟩
      intro k
      norm_num [Draws.cycle]

end Model

end Multistage
