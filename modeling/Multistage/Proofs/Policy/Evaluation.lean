/-
Multistage.Proofs.Policy.Evaluation — evaluating a policy and simulating it.

An evaluation returns the objectives of sampled paths, and a simulation lays the paths out in
a table.  Where every stage reports what is requested, both are made of the outcome of one
loop that samples the paths (`Model.sampleObjectives_eq`, `Model.simulate_eq`).  So they take
the same numbers and fail on the same paths, and the flat column of the table holds what the
evaluation returns (`Model.simulate_objective`).
-/
import Multistage.Proofs.Policy.Simulation

namespace Multistage

variable {α : Type} [Scalar α]

/-- A flat column of total objectives. -/
def Simulation.flat (samples : List α) : Nested (Entry α) :=
  .list (samples.map fun a => .entry (.amount a))

namespace Model

/-- Whether the requested variables are names that every stage reports, whatever is solved. -/
structure Reports (m : Model α) (requested : List Value) : Prop where
  names : ∀ name ∈ requested, Named.checkName name = .ok ()
  reported : ∀ t i x k s, t < m.stageCount → m.solveAt t i x k = .ok s →
    ∀ name ∈ requested, (s.values.get? name).isSome = true

variable {m : Model α} {requested : List Value}

theorem Reports.visits (hm : m.Reports requested) {n t i : Nat} {x : Point α} {d d' : Draws α}
    {path : List (Visit α)} (ht : t + n ≤ m.stageCount)
    (h : (m.visits n t i x).perform d = (.ok path, d')) : Simulation.Reports requested path := by
  induction n generalizing t i x d path with
  | zero =>
    cases h
    exact fun v hv => absurd hv List.not_mem_nil
  | succ n ih =>
    obtain ⟨v, d₁, later, rfl, -, hmakes, hlast | ⟨-, j, d₂, -, hlater⟩⟩ := visits_succ_eq_ok h
    all_goals have hfirst := hm.reported t v.markov x v.scenario _ (by omega) hmakes.solution
    · rw [hlast.2.1]
      exact List.forall_mem_singleton.mpr hfirst
    · exact List.forall_mem_cons.mpr ⟨hfirst, ih (by omega) hlater⟩

/-- Sampled paths report what every stage reports. -/
theorem Reports.trajectory (hm : m.Reports requested) {d d' : Draws α} {path : Trajectory α}
    (h : m.trajectory.perform d = (.ok path, d')) : Simulation.Reports requested path := by
  obtain ⟨first, d₁, -, h⟩ := Transition.perform_bind_eq_ok.mp h
  exact hm.visits (by omega) h

/-! ## One loop -/

theorem sampleObjectives_eq (m : Model α) (n : Nat) :
    m.sampleObjectives n
      = List.map Trajectory.objective <$> Transition.times n m.trajectory := by
  rw [← Transition.times_map, map_eq_pure_bind]
  rfl

/-- A simulation that fails on no path for want of a variable. -/
theorem simulate_eq (hm : m.Reports requested) (n : Nat) :
    m.simulate n requested
      = Simulation.table requested m.stageCount <$> Transition.times n m.trajectory := by
  have hnames : requested.forM Named.checkName = .ok () := forM_eq_ok.mpr hm.names
  have hpaths : (do
      let path ← m.trajectory
      Transition.outcome (Simulation.checkReported requested path)
      return path) = m.trajectory :=
    Transition.checked_eq fun d path d' h => Simulation.checkReported_eq_ok.mpr (hm.trajectory h)
  unfold simulate
  rw [hnames, hpaths, map_eq_pure_bind]
  rfl

end Model

theorem Simulation.table_objective {requested : List Value} (h : objectiveKey ∉ requested)
    (stages : Nat) (paths : List (Trajectory α)) :
    (table requested stages paths).get? objectiveKey
      = some (flat (paths.map Trajectory.objective)) := by
  rw [table_get? requested stages paths (by simp), column, if_pos rfl,
    if_neg fun hmem => h (List.contains_iff_mem.mp hmem), flat, List.map_map]
  rfl

/-- A simulation and an evaluation of a policy, on the same stream: they take the same
numbers, they fail alike, and the flat column of the table holds the objectives that the
evaluation returns. -/
theorem Model.simulate_objective {m : Model α} {requested : List Value}
    (hm : m.Reports requested) (hflat : objectiveKey ∉ requested) (n : Nat) :
    (fun table => table.get? objectiveKey) <$> m.simulate n requested
      = (fun samples => some (Simulation.flat samples)) <$> m.sampleObjectives n := by
  rw [simulate_eq hm, sampleObjectives_eq, Functor.map_map, Functor.map_map]
  congr 1
  exact funext fun paths => Simulation.table_objective hflat _ paths

end Multistage
