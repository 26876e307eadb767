/-
Multistage.Proofs.Policy.Children — cuts made of children.

Children are the solutions of all Markov states and scenarios of a stage
(`Model.AreChildren`), whatever the arithmetic.  A pair reaches the children of the
next stage with weights that form a distribution (`childWeights_isDistribution`).  The
solution of each child bounds a stage value by a line, so a cut that supports
the measure of the pair in the batch of its children is valid for the pair
(`isValidCut_of_supports`).
-/
import Multistage.Proofs.Policy.FutureValue

namespace Multistage

variable {K : Type} [Field K] [LinearOrder K]

/-! ## Children and their weights -/

section Children

variable {α : Type}

namespace Model

/-- Whether children are the solutions of all Markov states and scenarios of a stage at a
state, in this order. -/
def AreChildren (m : Model α) (t : Nat) (x : Point α) (children : List (Child α)) : Prop :=
  List.Forall₂ (fun e child => child.markov = e.1 ∧ child.scenario = e.2 ∧
      ∃ p, m.problems.get? t e.1 = some p ∧ p.solve x e.2 = .ok child.solution)
    (m.outcomes t) children

theorem areChildren_iff {m : Model α} {t : Nat} {x : Point α} {children : List (Child α)} :
    m.children t x = .ok children ↔ m.AreChildren t x children := by
  unfold Model.children AreChildren solveAt
  rw [mapM_eq_ok]
  refine iff_of_eq (congrArg (List.Forall₂ · _ _) ?_)
  funext ⟨j, s⟩ child
  rw [eq_iff_iff, bind_eq_ok]
  simp only [bind_eq_ok, Grid.entry_eq_ok]
  constructor
  · rintro ⟨solution, ⟨p, hp, hsolution⟩, h⟩
    obtain rfl := pure_eq_ok.mp h
    exact ⟨rfl, rfl, p, hp, hsolution⟩
  · rintro ⟨rfl, rfl, p, hp, hsolution⟩
    exact ⟨_, ⟨p, hp, hsolution⟩, rfl⟩

end Model

variable [Scalar α]

/-- Whether a weight of a child is its transition probability times its scenario
probability. -/
def Configuration.IsWeight (c : Configuration α) (t : Nat) (row : List α) (child : Child α)
    (w : Tensor α) : Prop :=
  ∃ p q part, row[child.markov]? = some p ∧ c.scenarios.get? (t + 1) child.markov = some q ∧
    q.parts[child.scenario]? = some part ∧ w = part.map (p * ·)

theorem Model.weight_eq_ok {m : Model α} {t : Nat} {row : List α} {child : Child α} {w : Tensor α} :
    m.weight t row child = .ok w ↔ m.configuration.IsWeight t row child w := by
  unfold Model.weight
  rw [bind_eq_ok]
  constructor
  · rintro ⟨q, hq, h⟩
    split at h
    · rename_i p part hp hpart
      exact ⟨p, q, part, hp, Grid.entry_eq_ok.mp hq, hpart, (Except.ok.inj h).symm⟩
    · cases h
  · rintro ⟨p, q, part, hp, hq, hpart, rfl⟩
    refine ⟨q, Grid.entry_eq_ok.mpr hq, ?_⟩
    rw [hp, hpart]
    rfl

end Children

/-! ## Measures that choose -/

namespace Rule

theorem isForeign_of_resolve {r : Rule K} {pair : Option (Value × Value)}
    (h : (r.resolve pair).IsCoherent) : r.isForeign = false := by
  cases r with
  | foreign given => exact h.elim
  | expectation => rfl
  | nested beta lambda slot => rfl
  | staged select fallback => rfl
  | custom name f g => rfl

/-- A measure whose choice for a pair is coherent has a cut for every batch at
that pair, and the cut supports the choice. -/
theorem cut_supports_resolve [IsStrictOrderedRing K] {r : Rule K} {n : Nat} {b : Batch K}
    (hb : b.IsRegular n) (s : Sense) (pair : Option (Value × Value))
    (hname : ∀ e, pair = some e → Named.checkName e.1 = .ok ())
    (hr : (r.resolve pair).IsCoherent) (buffers : Buffers K) :
    ∃ c buffers', (r.cut s b pair).perform buffers = (.ok c, buffers') ∧
      c.Supports (r.resolve pair) s b := by
  induction r generalizing pair buffers with
  | expectation => exact cut_supports (r := expectation) hr hb s pair buffers
  | nested beta lambda slot =>
    exact cut_supports (r := nested beta lambda slot) hr hb s pair buffers
  | staged select fallback ihselect ihfallback =>
    cases pair with
    | none => exact ihfallback none (by simp) hr buffers
    | some e =>
      obtain ⟨c, buffers', hcut, hsupports⟩ := ihselect e.1 e.2 none (by simp) hr buffers
      refine ⟨c, buffers', ?_, hsupports⟩
      simp [cut, Transition.perform_bind, hname e rfl, hcut]
  | custom name f g => exact hr.elim
  | foreign given => exact hr.elim

end Rule

/-! ## Weights -/

namespace Model

variable {m : Model K} {built : Grid (StageProblem K)}

theorem transitionWeights_spec (hm : m.IsMadeOf built) (hs : m.IsStochastic) {t i : Nat}
    (ht : t + 1 < m.stageCount) (hi : i < m.markovCount) :
    (m.transitionWeights t i).length = m.markovCount ∧
      IsDistribution (m.transitionWeights t i) := by
  obtain ⟨row, hrow⟩ := (Grid.get?_isSome hm.transition.fits (t := t) (i := i)).mpr
    ⟨by omega, hi⟩
  obtain ⟨rows, hrows, hmem⟩ := Grid.get?_eq_some.mp hrow
  have hweights : m.transitionWeights t i = row := by
    rw [transitionWeights, hrow, Option.getD_some]
  rw [hweights]
  have hmem := List.mem_of_getElem? hmem
  have hrows := List.mem_of_getElem? hrows
  exact ⟨hm.transition.rows _ hrows _ hmem, hm.transition.nonneg _ hrows _ hmem,
    hs.transition t i row hrow⟩

theorem scenarioWeights_spec (hm : m.IsMadeOf built) (hs : m.IsStochastic) {t i : Nat}
    (ht : t < m.stageCount) (hi : i < m.markovCount) :
    m.configuration.scenarios.get? t i = some (Tensor.vector (m.scenarioWeights t i)) ∧
      IsDistribution (m.scenarioWeights t i) := by
  obtain ⟨q, hq⟩ := (Grid.get?_isSome hm.scenarios (t := t) (i := i)).mpr ⟨ht, hi⟩
  obtain ⟨v, rfl, hv⟩ := hs.scenarios t i q hq
  have hweights : m.scenarioWeights t i = v := by
    rw [scenarioWeights, hq, Option.map_some, Option.getD_some, Tensor.vector]
  rw [hweights]
  exact ⟨hq, hv⟩

theorem childWeights_eq (hm : m.IsMadeOf built) (hs : m.IsStochastic) {t : Nat}
    (ht : t + 1 < m.stageCount) (i : Nat) :
    m.childWeights t i = (List.range m.markovCount).flatMap fun j =>
      (m.scenarioWeights (t + 1) j).map ((m.transitionWeights t i).getD j 0 * ·) := by
  unfold childWeights outcomes
  rw [List.map_flatMap]
  refine List.flatMap_congr fun j hj => ?_
  obtain ⟨hq, -⟩ := scenarioWeights_spec hm hs ht (List.mem_range.mp hj)
  have hsize : ((m.configuration.scenarios.get? (t + 1) j).map Tensor.size).getD 0
      = (m.scenarioWeights (t + 1) j).length := by
    rw [hq]
    rfl
  rw [hsize, List.map_map]
  conv_rhs => rw [← map_getD_range (m.scenarioWeights (t + 1) j), List.map_map]
  rfl

/-- The weights of the children of a pair form a distribution. -/
theorem childWeights_isDistribution [IsStrictOrderedRing K] (hm : m.IsMadeOf built)
    (hs : m.IsStochastic) {t i : Nat} (ht : t + 1 < m.stageCount) (hi : i < m.markovCount) :
    IsDistribution (m.childWeights t i) := by
  obtain ⟨hlen, hnonneg, hmass⟩ := transitionWeights_spec hm hs ht hi
  rw [childWeights_eq hm hs ht]
  have hscenarios : ∀ j ∈ List.range m.markovCount, IsDistribution (m.scenarioWeights (t + 1) j) :=
    fun j hj => (scenarioWeights_spec hm hs ht (List.mem_range.mp hj)).2
  constructor
  · intro p hp
    obtain ⟨j, hj, hp⟩ := List.mem_flatMap.mp hp
    obtain ⟨q, hq, rfl⟩ := List.mem_map.mp hp
    have hj' : j < (m.transitionWeights t i).length := hlen ▸ List.mem_range.mp hj
    rw [List.getD_eq_getElem _ _ hj']
    exact mul_nonneg (hnonneg _ (List.getElem_mem hj')) ((hscenarios j hj).1 q hq)
  · -- the scenarios of a Markov state share its transition probability
    have hsums : ∀ j ∈ List.range m.markovCount,
        ((m.scenarioWeights (t + 1) j).map ((m.transitionWeights t i).getD j 0 * ·)).sum
          = (m.transitionWeights t i).getD j 0 := by
      intro j hj
      rw [List.sum_map_mul_left, List.map_id', (hscenarios j hj).2, mul_one]
    rw [List.flatMap_def, List.sum_flatten, List.map_map, ← hmass]
    conv_rhs => rw [← map_getD_range (m.transitionWeights t i), hlen]
    exact congrArg List.sum (List.map_congr_left hsums)

end Model

/-! ## Children -/

/-- A child with what its solution says: the line of its objective and duals
bounds the value of its stage. -/
structure Decisions.IsChild (D : Decisions K) (m : Model K) (t : Nat) (x : Point K)
    (e : Nat × Nat) (c : Child K) : Prop where
  markov : c.markov = e.1
  scenario : c.scenario = e.2
  state : x.length = m.configuration.initialState.length
  dimension : c.solution.duals.length = x.length
  below : ∀ y : Point K, y.length = m.configuration.initialState.length →
    m.configuration.sense.below
      (c.solution.objective + Scalar.dot c.solution.duals (List.zipWith (· - ·) y x))
      (D.stageValue m t e.1 e.2 y)

namespace Model

variable {m : Model K} {built : Grid (StageProblem K)}

theorem weight_eq (hm : m.IsMadeOf built) (hs : m.IsStochastic) {t i : Nat}
    (ht : t + 1 < m.stageCount) (hi : i < m.markovCount) {c : Child K}
    (hc : (c.markov, c.scenario) ∈ m.outcomes (t + 1)) :
    m.weight t (m.transitionWeights t i) c
      = .ok (Tensor.single ((m.transitionWeights t i).getD c.markov 0 *
          (m.scenarioWeights (t + 1) c.markov).getD c.scenario 0)) := by
  obtain ⟨hj, q, hq, hscenario⟩ := mem_outcomes.mp hc
  obtain ⟨hv, -⟩ := scenarioWeights_spec hm hs ht hj
  obtain ⟨hlen, -⟩ := transitionWeights_spec hm hs ht hi
  have hscenario' : c.scenario < (m.scenarioWeights (t + 1) c.markov).length := by
    rw [hv] at hq
    cases hq
    exact hscenario
  have hp : (m.transitionWeights t i)[c.markov]?
      = some ((m.transitionWeights t i).getD c.markov 0) := by
    rw [List.getD_eq_getElem _ _ (hlen ▸ hj), List.getElem?_eq_getElem]
  have hpart : (Tensor.vector (m.scenarioWeights (t + 1) c.markov)).parts[c.scenario]?
      = some (Tensor.single ((m.scenarioWeights (t + 1) c.markov).getD c.scenario 0)) := by
    rw [Tensor.parts_vector, List.getElem?_map, List.getElem?_eq_getElem hscenario',
      List.getD_eq_getElem _ _ hscenario', Option.map_some]
  exact weight_eq_ok.mpr ⟨_, _, _, hp, hv, hpart, rfl⟩

/-- The weights of all children, stacked. -/
theorem stack_weights (hm : m.IsMadeOf built) (hs : m.IsStochastic) {t i : Nat}
    (ht : t + 1 < m.stageCount) (hi : i < m.markovCount) {D : Decisions K} {x : Point K}
    {children : List (Child K)}
    (hchildren : List.Forall₂ (D.IsChild m (t + 1) x) (m.outcomes (t + 1)) children) :
    (do Tensor.stack (← children.mapM (m.weight t (m.transitionWeights t i))))
      = .ok (Tensor.vector (m.childWeights t i)) := by
  have hweights : children.mapM (m.weight t (m.transitionWeights t i))
      = .ok ((m.childWeights t i).map Tensor.single) := by
    refine mapM_eq_ok.mpr ?_
    unfold childWeights
    rw [List.map_map, List.forall₂_map_right_iff]
    have hmem := (List.forall₂_and_left (m.outcomes (t + 1)) children).mpr
      ⟨fun e he => he, hchildren⟩
    refine List.Forall₂.flip (hmem.imp fun e c hc => ?_)
    obtain ⟨he, hmarkov, hscenario, -⟩ := hc
    have hc : (c.markov, c.scenario) = e := by rw [hmarkov, hscenario]
    rw [← hc]
    exact weight_eq hm hs ht hi (hc ▸ he)
  rw [hweights, ok_bind, Tensor.stack_single]

/-- The batch that a pair has of its children. -/
def childBatch (m : Model K) (t i : Nat) (x : Point K) (children : List (Child K)) : Batch K where
  state := x
  duals := children.map fun c => c.solution.duals
  objectives := children.map fun c => c.solution.objective
  probabilities := m.childWeights t i
  objectiveShape := []
  probabilityShape := []

section Batch

variable [IsStrictOrderedRing K] (hm : m.IsMadeOf built) (hs : m.IsStochastic) {t i : Nat}
  (ht : t + 1 < m.stageCount) (hi : i < m.markovCount) {D : Decisions K} {x : Point K}
  {children : List (Child K)}
  (hchildren : List.Forall₂ (D.IsChild m (t + 1) x) (m.outcomes (t + 1)) children)

include hm hs ht hi hchildren

/-- A distribution has an entry, so there is a child. -/
theorem children_ne_nil : children ≠ [] := by
  obtain ⟨-, hmass⟩ := childWeights_isDistribution hm hs ht hi
  have hlen : (m.childWeights t i).length = children.length := by
    rw [childWeights, List.length_map, hchildren.length_eq]
  intro hnil
  rw [hnil, List.length_nil, List.length_eq_zero_iff] at hlen
  rw [hlen] at hmass
  exact absurd hmass (by simp)

theorem childBatch_isRegular :
    (m.childBatch t i x children).IsRegular m.configuration.initialState.length := by
  obtain ⟨hnonneg, hmass⟩ := childWeights_isDistribution hm hs ht hi
  have hlen : (m.childWeights t i).length = children.length := by
    rw [childWeights, List.length_map, hchildren.length_eq]
  have hchild : ∀ c ∈ children, x.length = m.configuration.initialState.length ∧
      c.solution.duals.length = x.length := by
    intro c hc
    obtain ⟨k, hk, rfl⟩ := List.getElem_of_mem hc
    have h := hchildren.get (hchildren.length_eq ▸ hk) hk
    exact ⟨h.state, h.dimension⟩
  obtain ⟨c, hc⟩ := List.exists_mem_of_ne_nil _ (children_ne_nil hm hs ht hi hchildren)
  have hx := (hchild c hc).1
  refine ⟨hx, fun d hd => ?_, ?_, ?_, rfl, rfl, hnonneg, hmass⟩
  · obtain ⟨c, hc, rfl⟩ := List.mem_map.mp hd
    exact (hchild c hc).2.trans hx
  · simp [childBatch]
  · simpa [childBatch] using hlen

/-- The duals of the children are the rows of a matrix. -/
theorem stackDuals_eq_ok : stackDuals children
    = .ok (Tensor.ofRows x.length (children.map fun c => c.solution.duals)) := by
  have hb := childBatch_isRegular hm hs ht hi hchildren
  have hstack := Tensor.stack_vectors (fun d hd => (hb.duals d hd).trans hb.state.symm)
    (mt List.map_eq_nil_iff.mp (children_ne_nil hm hs ht hi hchildren))
  unfold childBatch at hstack
  rw [List.map_map] at hstack
  exact hstack

/-- The solutions of the children fit together. -/
theorem batch_eq_ok :
    batch x children (Tensor.ofRows x.length (children.map fun c => c.solution.duals))
        (Tensor.vector (m.childWeights t i))
      = .ok (m.childBatch t i x children) := by
  have hb := childBatch_isRegular hm hs ht hi hchildren
  exact Batch.ofTensors_vectors (m.childBatch t i x children).objectives
    (fun d hd => (hb.duals d hd).trans hb.state.symm) hb.objectives hb.probabilities hb.nonneg
    hb.mass

end Batch

/-- A cut that supports the measure of a pair in the batch of its children is
valid for the pair. -/
theorem isValidCut_of_supports {D : Decisions K} {t i : Nat} (ht : t + 1 < m.stageCount)
    {x : Point K} {children : List (Child K)}
    (hchildren : List.Forall₂ (D.IsChild m (t + 1) x) (m.outcomes (t + 1)) children)
    (hx : x.length = m.configuration.initialState.length) {c : Cut K}
    (hc : c.Supports (m.ruleAt t i) m.configuration.sense (m.childBatch t i x children)) :
    D.IsValidCut m t i c := by
  refine Decisions.isValidCut_iff.mpr ⟨hc.dimension.trans hx, fun y hy => ?_⟩
  rw [Decisions.futureValue_eq ht]
  refine hc.below y (hy.trans hx.symm) _ ?_
  unfold Batch.lines childBatch
  rw [List.zipWith_map, List.zipWith_self, List.forall₂_map_left_iff, List.forall₂_map_right_iff]
  exact List.Forall₂.flip (hchildren.imp fun e c hc => hc.below y hy)

end Model

end Multistage
