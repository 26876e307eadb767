/-
Multistage.Proofs.Model.Snapshot — workers rebuild the same model.

A worker makes its model of the snapshot of another one.  Whatever arguments that model
was made of, and whatever has been computed with it since, the snapshot passes all checks
that the arguments have passed: it hands on the transition probabilities as one array,
even if there is no matrix in it, and the scenario probabilities as vectors.  The model
made of it is the other one as it was when it was made, and its own snapshot is the same
(`Model.snapshot_rebuilds`).
-/
import Multistage.Proofs.Binary64.Order
import Multistage.Proofs.Model.Construction

namespace Multistage

variable {α : Type} [Scalar α] [Scalar.IsOrdered α]

omit [Scalar.IsOrdered α] in
/-- The scenario probabilities of a fresh model are those of its stage problems. -/
theorem Configuration.Passes.exists_problem {c : Configuration α} {built : Grid (StageProblem α)}
    {n : Int} (h : c.Passes built n) {t i : Nat} {q : Tensor α}
    (hq : c.scenarios.get? t i = some q) :
    ∃ p, (c.fresh built n).problems.get? t i = some p ∧ p.probabilities = q := by
  obtain ⟨p, hp, -⟩ := h.scenarioSizes t i q hq
  exact ⟨_, Blueprint.get?_withScenarios.mpr ⟨p, q, hp, hq, rfl⟩, rfl⟩

/-- A snapshot is rebuilt to the model as it was made.  The model is made of any arguments
that are accepted, its stage problems have vectors of probabilities, and the snapshot is
taken of it or of what has become of it: its configuration is as it was, but for the
scratch buffers of its measure. -/
theorem Model.snapshot_rebuilds (hone : (0 : α) < 1) {b : Blueprint α} {m : Model α}
    (hrect : ∀ t, b.transition = .ok (some t) → t.IsRectangular) (hmade : b.model = .ok m)
    (hvectors : ∀ t i p, m.problems.get? t i = some p → ∃ v, p.probabilities = Tensor.vector v)
    {m' : Model α} {buffers : Buffers α}
    (hm' : m'.configuration = m.configuration.withBuffers buffers) :
    ∃ made, m'.snapshot.rebuild = .ok made ∧ made.configuration = m'.configuration ∧
      made.stateCount = m.stateCount ∧ made.problems = m.problems ∧
      made.stores = Grid.ofFn made.stageCount made.markovCount
        (fun _ _ => Store.empty made.stateCount) ∧
      made.figures = {} ∧ made.firstStage = [] ∧
      made.snapshot = m'.snapshot := by
  obtain ⟨built, hpasses, hfresh⟩ := Blueprint.exists_fresh hone hrect hmade
  have hscenarios : ∀ t i q, m.configuration.scenarios.get? t i = some q →
      ∃ v, q = Tensor.vector v := by
    intro t i q hq
    obtain ⟨p, hp, rfl⟩ := hpasses.exists_problem hq
    rw [← hfresh] at hp
    exact hvectors t i p hp
  refine ⟨(m.configuration.withBuffers buffers).fresh built m.stateCount, ?_, hm'.symm, rfl, ?_,
    rfl, rfl, rfl, hm'.symm⟩
  · show m'.configuration.rebuild = _
    rw [hm']
    exact (hpasses.withBuffers buffers).rebuild_eq hscenarios
  · exact (congrArg Model.problems hfresh).symm

/-- A stage with two scenarios whose cost is what comes in. -/
def relayProblem : StageProblem Float where
  stateCount := 1
  probabilities := Tensor.vector [0.5, 0.5]
  answer _ x _ := .ok
    { objective := x.headD 0.0, stageObjective := x.headD 0.0, duals := [1.0], state := x
      values := [] }

/-- A model of one stage and two Markov states, without a matrix of transitions from its
last stage. -/
def relay : Blueprint Float where
  builder := some fun _ _ => .ok (.problem relayProblem)
  stageCount := Given.exactly 1
  markovCount := Given.exactly 2
  initialState := .ok [3.0]
  transition := .ok (some ⟨[2, 2], [0.5, 0.5, 0.25, 0.75]⟩)
  confidence := Given.exactly 0.95

/-- The stage problem with what the model tells it. -/
def relayProblemAt (t i : Nat) : StageProblem Float :=
  { relayProblem with setting := { final := t + 1 == 1, stage := .int t, markovState := .int i } }

/-- The model of the blueprint. -/
def relayModel : Model Float where
  configuration :=
    { sense := .min, stageCount := 1, markovCount := 2, initialState := [3.0], transition := []
      initial := [1.0, 0.0], scenarios := Grid.ofFn 1 2 fun _ _ => Tensor.vector [0.5, 0.5]
      confidence := 0.95, params := [], bound := none, measure := { rule := .expectation }
      builder := fun _ _ => .ok (.problem relayProblem) }
  stateCount := 1
  problems := Grid.ofFn 1 2 relayProblemAt
  stores := Grid.ofFn 1 2 fun _ _ => Store.empty 1

theorem relay_model : relay.model = .ok relayModel := rfl

/-- The model after a cut of its measure has left a scratch buffer behind. -/
def relayLater : Model Float :=
  { relayModel with configuration := relayModel.configuration.withBuffers fun _ => [0.25] }

/-- Transition probabilities without a matrix are handed on and accepted. -/
theorem relay_rebuilds : ∃ made, relayLater.snapshot.rebuild = .ok made ∧
    made.configuration.transition = [] ∧ made.problems = relayModel.problems := by
  have hlater : relayLater.configuration = relayModel.configuration.withBuffers fun _ => [0.25] :=
    rfl
  obtain ⟨made, hmade, hconfiguration, -, hproblems, -⟩ := Model.snapshot_rebuilds
    (b := relay) (by decide) (by rintro t ⟨⟩; rfl) relay_model
    (fun t i p hp => ⟨[0.5, 0.5], by rw [Grid.ofFn_eq_some hp]; rfl⟩) hlater
  exact ⟨made, hmade, by rw [hconfiguration]; rfl, hproblems⟩

end Multistage
