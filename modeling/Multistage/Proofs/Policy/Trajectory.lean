/-
Multistage.Proofs.Policy.Trajectory — sampled paths.

Whatever numbers are drawn, a path that is sampled to its end has a visit for every stage.
-/
import Multistage.Policy.Trajectory
import Multistage.Proofs.Transition

namespace Multistage.Model

variable {α : Type} [Scalar α]

/-- Whether a visit of stage `t` is made at a state: its scenario is drawn, and its stage is
solved there. -/
structure Makes (m : Model α) (t : Nat) (x : Point α) (v : Visit α) (d d' : Draws α) : Prop where
  scenario : ∃ q, m.scenarioRow t v.markov = .ok q ∧
    (sampleLeading q).perform d = (.ok v.scenario, d')
  solution : m.solveAt t v.markov x v.scenario = .ok v.solution

/-- Whether the Markov state `j` is drawn for the stage after `t`. -/
def Moves (m : Model α) (t i j : Nat) (d d' : Draws α) : Prop :=
  ∃ row, m.transitionRow t i = .ok row ∧ (sampleIndex row).perform d = (.ok j, d')

/-- Visits are a first one and, if a stage is left, a Markov state that is drawn and the visits
from there. -/
theorem visits_succ_eq_ok {m : Model α} {n t i : Nat} {x : Point α} {d d' : Draws α}
    {path : List (Visit α)} (h : (m.visits (n + 1) t i x).perform d = (.ok path, d')) :
    ∃ v d₁ later, path = v :: later ∧ v.markov = i ∧ m.Makes t x v d d₁ ∧
      ((n = 0 ∧ later = [] ∧ d' = d₁) ∨
        0 < n ∧ ∃ j d₂, m.Moves t i j d₁ d₂ ∧
          (m.visits n (t + 1) j v.solution.state).perform d₂ = (.ok later, d')) := by
  unfold visits at h
  obtain ⟨q, hq, h⟩ := Transition.outcome_bind_eq_ok.mp h
  obtain ⟨scenario, d₁, hscenario, h⟩ := Transition.perform_bind_eq_ok.mp h
  obtain ⟨solution, hsolution, h⟩ := Transition.outcome_bind_eq_ok.mp h
  have hmakes : m.Makes t x ⟨i, scenario, solution⟩ d d₁ := ⟨⟨q, hq, hscenario⟩, hsolution⟩
  cases n with
  | zero =>
    cases h
    exact ⟨_, _, [], rfl, rfl, hmakes, .inl ⟨rfl, rfl, rfl⟩⟩
  | succ n =>
    obtain ⟨row, hrow, h⟩ := Transition.outcome_bind_eq_ok.mp h
    obtain ⟨next, d₂, hnext, h⟩ := Transition.perform_bind_eq_ok.mp h
    obtain ⟨later, d₃, hlater, h⟩ := Transition.perform_bind_eq_ok.mp h
    cases h
    exact ⟨_, _, later, rfl, rfl, hmakes,
      .inr ⟨Nat.succ_pos n, next, d₂, ⟨row, hrow, hnext⟩, hlater⟩⟩

/-- A path has a visit for every stage. -/
theorem length_visits {m : Model α} {n t i : Nat} {x : Point α} {d d' : Draws α}
    {path : List (Visit α)} (h : (m.visits n t i x).perform d = (.ok path, d')) :
    path.length = n := by
  induction n generalizing t i x d path with
  | zero =>
    cases h
    rfl
  | succ n ih =>
    obtain ⟨v, d₁, later, rfl, -, -, ⟨rfl, rfl, -⟩ | ⟨-, j, d₂, -, hlater⟩⟩ := visits_succ_eq_ok h
    · rfl
    · rw [List.length_cons, ih hlater]

theorem length_trajectory {m : Model α} {d d' : Draws α} {path : Trajectory α}
    (h : m.trajectory.perform d = (.ok path, d')) : path.length = m.stageCount := by
  obtain ⟨first, d₁, -, h⟩ := Transition.perform_bind_eq_ok.mp h
  exact length_visits h

end Multistage.Model
