/-
Multistage.Proofs.Model.Tables — the tables of a model that has been made.

Three tables of probabilities come into a model: transition probabilities, the initial
distribution, and the scenario probabilities of every stage and Markov state.  They have the
shape of the model, as have its stage problems and stores (`Model.FitsTogether`).  The first
two are looked through for entries below zero.  The third is not, nor are the tables that
stage problems bring along asked to be vectors: they are what the arguments say
(`Blueprint.Gives`), and only if these are weights, the bound grows with the objectives of
the first stage (`Blueprint.model_fitsTogether`).
-/
import Multistage.Proofs.Binary64.Arithmetic
import Multistage.Proofs.Model.Snapshot
import Multistage.Proofs.Policy.BoundOrder

namespace Multistage

variable {α : Type} [Scalar α]

/-! ## Entries -/

/-- Arguments whose arrays have as many entries as their shapes say, all of them numbers. -/
structure Blueprint.HasNumbers (b : Blueprint α) : Prop where
  rectangular : ∀ t, b.transition = .ok (some t) → t.IsRectangular
  transition : ∀ t, b.transition = .ok (some t) → AreNumbers t.entries
  initial : ∀ p, b.initial = .ok (some p) → AreNumbers p

section Entries

variable [Scalar.IsMonotone α]

theorem Blueprint.transitionGrid_nonneg {stages states : Nat} {given : Option (Tensor α)}
    {grid : Grid (List α)} (hnumbers : ∀ t, given = some t → AreNumbers t.entries)
    (h : transitionGrid stages states given = .ok grid) :
    ∀ rows ∈ grid, ∀ row ∈ rows, ∀ p ∈ row, 0 ≤ p := by
  intro rows hrows row hrow p hp
  rcases transitionGrid_mem h rows hrows row hrow p hp with rfl | ⟨hsign, t, ht, hmem⟩
  · exact Scalar.nonneg_one
  · exact Scalar.nonneg_of_not_neg (hnumbers t ht p hmem) hsign

theorem Blueprint.initialDistribution_nonneg {states : Nat} {given : Option (List α)}
    {initial : List α} (hnumbers : ∀ p, given = some p → AreNumbers p)
    (h : initialDistribution states given = .ok initial) : ∀ p ∈ initial, 0 ≤ p := by
  cases given with
  | none =>
    simp only [initialDistribution] at h
    cases h
    refine List.forall_mem_cons.mpr ⟨Scalar.nonneg_one, fun p hp => ?_⟩
    rw [List.eq_of_mem_replicate hp]
    exact Scalar.nonneg_zero
  | some xs =>
    simp only [initialDistribution] at h
    split at h
    · cases h
    · split at h
      · cases h
      · rename_i hsign
        cases h
        intro p hp
        refine Scalar.nonneg_of_not_neg (hnumbers _ rfl p hp) fun hneg => hsign ?_
        exact List.any_eq_true.mpr ⟨p, hp, decide_eq_true hneg⟩

end Entries

/-! ## Scenario probabilities -/

/-- The scenario probabilities that the arguments give a stage and Markov state: those that
are looked up, as a vector, or else those of the stage problem. -/
inductive Blueprint.Gives {α : Type} (b : Blueprint α) (t i : Nat) : Tensor α → Prop where
  | lookedUp {lookUp : Nat → Nat → Except Failure (List α)} {v : List α}
      (h : b.scenarios = some lookUp) (hv : lookUp t i = .ok v) : Gives b t i (Tensor.vector v)
  | own {builder : Builder α} {p : StageProblem α} (h : b.scenarios = none)
      (hbuilder : b.builder = some builder) (hp : builder t i = .ok (.problem p)) :
      Gives b t i p.probabilities

namespace Blueprint

variable {b : Blueprint α} {m : Model α} {given : Option (Tensor α)} {start : Option (List α)}
  {built : Grid (StageProblem α)} {t i : Nat} {q q' : Tensor α}

omit [Scalar α] in
theorem Gives.unique (h : b.Gives t i q) (h' : b.Gives t i q') : q = q' := by
  cases h with
  | lookedUp h hv =>
    cases h' with
    | lookedUp h' hv' =>
      cases h.symm.trans h'
      cases hv.symm.trans hv'
      rfl
    | own h' => cases h.symm.trans h'
  | own h hbuilder hp =>
    cases h' with
    | lookedUp h' => cases h.symm.trans h'
    | own h' hbuilder' hp' =>
      cases hbuilder.symm.trans hbuilder'
      cases hp.symm.trans hp'
      rfl

namespace Yields

theorem built_spec (hm : b.Yields m given start built) {p : StageProblem α}
    (hp : built.get? t i = some p) :
    ∃ source, m.configuration.builder t i = .ok (.problem source) ∧ p =
      (source.bind
        { sense := m.configuration.sense, final := t + 1 == m.stageCount
          bound := m.configuration.bound, stage := .int t, markovState := .int i }).addParams
        m.configuration.params :=
  buildProblem_spec ((Grid.ofFnM_eq_ok.mp hm.build).2 t i p hp)

theorem gives (hm : b.Yields m given start built)
    (hq : m.configuration.scenarios.get? t i = some q) : b.Gives t i q := by
  obtain ⟨p, hp, -, -, hq⟩ := scenarioVector_spec ((Grid.ofFnM_eq_ok.mp hm.scenarios).2 t i q hq)
  rcases hq with ⟨hnone, rfl⟩ | ⟨lookUp, v, hsome, hv, rfl⟩
  · obtain ⟨source, hsource, rfl⟩ := hm.built_spec hp
    have hown : b.Gives t i source.probabilities := .own hnone hm.builder hsource
    exact hown
  · exact .lookedUp hsome hv

/-- A property of all scenario probabilities is one of what the arguments give. -/
theorem forall_scenarios_iff (hm : b.Yields m given start built) (proper : Nat → Tensor α → Prop) :
    (∀ t i q, m.configuration.scenarios.get? t i = some q → proper t q)
      ↔ ∀ t i q, t < m.stageCount → i < m.markovCount → b.Gives t i q → proper t q := by
  have hfits := (Grid.ofFnM_eq_ok.mp hm.scenarios).1
  constructor
  · intro h t i q ht hi hq
    obtain ⟨q', hq'⟩ := (Grid.get?_isSome hfits).mpr ⟨ht, hi⟩
    rw [hq.unique (hm.gives hq')]
    exact h t i q' hq'
  · intro h t i q hq
    obtain ⟨ht, hi⟩ := (Grid.get?_isSome hfits).mp ⟨q, hq⟩
    exact h t i q ht hi (hm.gives hq)

end Yields

end Blueprint

/-! ## Models whose parts fit together -/

namespace Model

/-- Whether the parts of a model fit together: its tables of probabilities have the shape of
the model and two of them no entry below zero, its problems know where they stand, and there
is one number of states throughout. -/
structure FitsTogether (m : Model α) : Prop where
  transition : Blueprint.HasRows m.stageCount m.markovCount m.configuration.transition
  transitionNonneg : ∀ rows ∈ m.configuration.transition, ∀ row ∈ rows, ∀ p ∈ row, 0 ≤ p
  initialLength : m.configuration.initial.length = m.markovCount
  initialNonneg : ∀ p ∈ m.configuration.initial, 0 ≤ p
  scenarios : m.configuration.scenarios.fits m.stageCount m.markovCount = true
  problems : m.problems.fits m.stageCount m.markovCount = true
  stores : m.stores.fits m.stageCount m.markovCount = true
  scenarioCount : ∀ t i q, m.configuration.scenarios.get? t i = some q → q.size ≠ 0 ∧
    ∃ source, m.configuration.builder t i = .ok (.problem source) ∧ source.scenarioCount = q.size
  probabilities : ∀ t i p, m.problems.get? t i = some p →
    m.configuration.scenarios.get? t i = some p.probabilities
  setting : ∀ t i p, m.problems.get? t i = some p → p.setting =
    { sense := m.configuration.sense, final := t + 1 == m.stageCount
      bound := m.configuration.bound, stage := .int t, markovState := .int i }
  problemStates : ∀ t i p, m.problems.get? t i = some p → p.stateCount = m.stateCount
  initialStates : (m.configuration.initialState.length : Int) = m.stateCount
  store : ∀ t i s, m.stores.get? t i = some s → s = Store.empty m.stateCount

/-- Whether all scenario probabilities are weights. -/
def ScenariosAreWeights (m : Model α) : Prop :=
  ∀ t i q, m.configuration.scenarios.get? t i = some q → IsWeights q

end Model

theorem Blueprint.Yields.fitsTogether [Scalar.IsMonotone α] {b : Blueprint α} {m : Model α}
    {given : Option (Tensor α)} {start : Option (List α)} {built : Grid (StageProblem α)}
    (hm : b.Yields m given start built) (hnumbers : b.HasNumbers) : m.FitsTogether where
  transition := (transitionGrid_hasRows
    (fun t ht => hnumbers.rectangular t (ht ▸ hm.givenTransition)) hm.transition).1
  transitionNonneg := transitionGrid_nonneg
    (fun t ht => hnumbers.transition t (ht ▸ hm.givenTransition)) hm.transition
  initialLength := (initialDistribution_length Scalar.IsSymmetric.zero_lt_one
    (count_spec hm.states) hm.initial).1
  initialNonneg := initialDistribution_nonneg
    (fun p hp => hnumbers.initial p (hp ▸ hm.givenInitial)) hm.initial
  scenarios := (Grid.ofFnM_eq_ok.mp hm.scenarios).1
  problems := by
    rw [hm.problems]
    exact Grid.fits_zipWith (Grid.ofFnM_eq_ok.mp hm.build).1 (Grid.ofFnM_eq_ok.mp hm.scenarios).1
  stores := by
    rw [hm.stores]
    exact Grid.fits_ofFn ..
  scenarioCount t i q hq := by
    obtain ⟨p, hp, hleading, hsome, -⟩ :=
      scenarioVector_spec ((Grid.ofFnM_eq_ok.mp hm.scenarios).2 t i q hq)
    obtain ⟨source, hsource, rfl⟩ := hm.built_spec hp
    exact ⟨hsome, source, hsource, congrArg (·.getD 0) hleading⟩
  probabilities t i p hp := by
    rw [hm.problems, get?_withScenarios] at hp
    obtain ⟨p₀, q, -, hq, rfl⟩ := hp
    exact hq
  setting t i p hp := by
    rw [hm.problems, get?_withScenarios] at hp
    obtain ⟨p₀, q, hp₀, -, rfl⟩ := hp
    obtain ⟨source, -, rfl⟩ := hm.built_spec hp₀
    rfl
  problemStates t i p hp := by
    rw [hm.problems, get?_withScenarios] at hp
    obtain ⟨p₀, q, hp₀, -, rfl⟩ := hp
    have hcount : p₀.stateCount = m.stateCount := commonStateCount_spec hm.stateCount hp₀
    exact hcount
  initialStates := hm.dimension
  store t i s hs := by
    rw [hm.stores] at hs
    exact Grid.ofFn_eq_some hs

omit [Scalar α] in
theorem Model.mem_firstRows {m : Model α} {q : Tensor α} :
    q ∈ m.firstRows ↔ ∃ i, m.configuration.scenarios.get? 0 i = some q := by
  simp only [firstRows, Grid.get?_eq_some]
  cases m.configuration.scenarios[0]? with
  | none => simp
  | some row => simp [List.mem_iff_getElem?]

/-- The parts of a model that has been made fit together, whatever its arguments are.  Its
scenario probabilities are weights exactly if those of the arguments are.  If those of the
first stage are, the bound grows with each objective of the first stage, at any time. -/
theorem Blueprint.model_fitsTogether [Scalar.IsMonotone α] {b : Blueprint α} {m : Model α}
    (hnumbers : b.HasNumbers) (h : b.model = .ok m) :
    m.FitsTogether ∧
      (m.ScenariosAreWeights ↔
        ∀ t i q, t < m.stageCount → i < m.markovCount → b.Gives t i q → IsWeights q) ∧
      ((∀ i q, i < m.markovCount → b.Gives 0 i q → IsWeights q) →
        ∀ (m' : Model α) (buffers : Buffers α),
          m'.configuration = m.configuration.withBuffers buffers → m'.BoundGrows) := by
  obtain ⟨given, start, built, hm⟩ := model_spec h
  have hfits := hm.fitsTogether hnumbers
  refine ⟨hfits, hm.forall_scenarios_iff fun _ => IsWeights, fun hgiven m' buffers hm' => ?_⟩
  have hfirst := (hm.forall_scenarios_iff fun t q => t = 0 → IsWeights q).mpr (by
    rintro t i q - hi hq rfl
    exact hgiven i q hi hq)
  have hscenarios : m'.configuration.scenarios = m.configuration.scenarios := by
    rw [hm']
    rfl
  refine Model.boundGrows ?_ ?_ ?_
  · rw [hm']
    exact hfits.initialNonneg
  · obtain ⟨q, hq⟩ := (Grid.get?_isSome hfits.scenarios).mpr
      ⟨count_spec hm.stages, count_spec hm.states⟩
    exact List.ne_nil_of_mem (Model.mem_firstRows.mpr ⟨0, hscenarios ▸ hq⟩)
  · intro q hq
    obtain ⟨i, hi⟩ := Model.mem_firstRows.mp hq
    rw [hscenarios] at hi
    exact hfirst 0 i q hi rfl

/-- The relay over two stages, with its matrix between them. -/
def longRelay : Blueprint Float := { relay with stageCount := Given.exactly 2 }

/-- The model of the blueprint. -/
def longRelayModel : Model Float where
  configuration :=
    { relayModel.configuration with
      stageCount := 2
      transition := [[[0.5, 0.5], [0.25, 0.75]]]
      scenarios := Grid.ofFn 2 2 fun _ _ => Tensor.vector [0.5, 0.5] }
  stateCount := 1
  problems := Grid.ofFn 2 2 fun t i =>
    { relayProblem with setting := { final := t + 1 == 2, stage := .int t, markovState := .int i } }
  stores := Grid.ofFn 2 2 fun _ _ => Store.empty 1

theorem longRelay_model : longRelay.model = .ok longRelayModel := rfl

/-- The relay has weights, so its bound grows. -/
theorem longRelay_fitsTogether : longRelayModel.FitsTogether ∧
    longRelayModel.ScenariosAreWeights ∧ longRelayModel.BoundGrows := by
  have hweights : ∀ t i q, longRelay.Gives t i q → IsWeights q := by
    intro t i q hq
    cases hq with
    | lookedUp h => cases h
    | own h hbuilder hp =>
      cases hbuilder
      cases hp
      exact ⟨[0.5, 0.5], rfl, by decide⟩
  obtain ⟨hfits, hiff, hgrows⟩ := Blueprint.model_fitsTogether (b := longRelay)
    ⟨by rintro t ⟨⟩; rfl, by rintro t ⟨⟩; simp only [AreNumbers]; decide, by rintro p ⟨⟩⟩
    longRelay_model
  exact ⟨hfits, hiff.mpr fun t i q _ _ => hweights t i q, hgrows (fun i q _ => hweights 0 i q)
    longRelayModel longRelayModel.configuration.measure.buffers rfl⟩

/-- One stage with two scenarios, and a probability below zero for one of them. -/
def skewed : Blueprint Float where
  builder := some fun _ _ => .ok (.problem relayProblem)
  stageCount := Given.exactly 1
  initialState := .ok [3.0]
  scenarios := some fun _ _ => .ok [-0.5, 1.5]
  confidence := Given.exactly 0.95

/-- The model of the blueprint. -/
def skewedModel : Model Float where
  configuration :=
    { sense := .min, stageCount := 1, markovCount := 1, initialState := [3.0], transition := []
      initial := [1.0], scenarios := [[Tensor.vector [-0.5, 1.5]]], confidence := 0.95
      params := [], bound := none, measure := { rule := .expectation }
      builder := fun _ _ => .ok (.problem relayProblem) }
  stateCount := 1
  problems := [[{ relayProblem with
    probabilities := Tensor.vector [-0.5, 1.5]
    setting := { final := true, stage := .int 0, markovState := .int 0 } }]]
  stores := [[Store.empty 1]]

/-- Solutions of the first stage with two objectives. -/
def skewedSolutions (a b : Float) : List (List (StageSolution Float)) :=
  [[a, b].map fun objective =>
    { objective, stageObjective := objective, duals := [1.0], state := [3.0], values := [] }]

/-- The probability below zero is accepted, and the bound falls from one to zero where an
objective rises from one to three. -/
theorem skewed_bound_falls : skewed.model = .ok skewedModel ∧ ¬skewedModel.ScenariosAreWeights ∧
    ¬skewedModel.BoundGrows := by
  refine ⟨rfl, fun h => ?_, fun h => ?_⟩
  · obtain ⟨v, hv, hnonneg⟩ := h 0 0 (Tensor.vector [-0.5, 1.5]) rfl
    have hentries : [-0.5, 1.5] = v := congrArg Tensor.entries hv
    exact absurd (hnonneg (-0.5) (hentries ▸ List.mem_cons_self)) (by decide)
  · obtain ⟨x, y, hx, hy, hxy⟩ := h (skewedSolutions 1.0 1.0) (skewedSolutions 3.0 1.0)
      (.cons rfl .nil)
      (.cons (.cons (fun _ _ => by decide) (.cons (fun _ _ => by decide) .nil)) .nil)
    have hlow : (Model.setBound.perform
        { skewedModel with firstStage := skewedSolutions 1.0 1.0 }).1 = .ok 1.0 := rfl
    have hhigh : (Model.setBound.perform
        { skewedModel with firstStage := skewedSolutions 3.0 1.0 }).1 = .ok 0.0 := rfl
    cases hx.symm.trans hlow
    cases hy.symm.trans hhigh
    exact absurd (hxy (by decide) (by decide)) (by decide)

end Multistage
