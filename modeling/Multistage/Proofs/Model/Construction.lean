/-
Multistage.Proofs.Model.Construction — what a model consists of when it has
been made.

`Configuration.Passes` collects what the checks of a blueprint leave, in any
arithmetic: the shapes of the transition rows and of the scenario probabilities, and
the stage problems, which are those of the builder with the model's settings.  The
configuration of a model passes all checks again (`Blueprint.exists_fresh`), and the
model that is made of it is the one it was taken from, without cuts and figures
(`Configuration.Passes.rebuild_eq`).

`Model.IsMadeOf` says the same of models in exact arithmetic, where probabilities that
were looked through are not negative.  What a rebuilt model has of any configuration is
in `Configuration.rebuild_shape`.
-/
import Multistage.Model.Blueprint
import Multistage.Proofs.Cut.Order
import Multistage.Proofs.Grid
import Multistage.Proofs.Tensor

namespace Multistage

/-! ## Shapes -/

namespace Blueprint

section Rows

variable {α : Type}

/-- One row per stage but the last and Markov state, with an entry for every Markov
state. -/
structure HasRows (stages states : Nat) (grid : Grid (List α)) : Prop where
  fits : grid.fits (stages - 1) states = true
  rows : ∀ rows ∈ grid, ∀ row ∈ rows, row.length = states

theorem hasRows_of_chunks {stages states : Nat} {grid : Grid (List α)}
    (hlen : grid.length = stages - 1)
    (hchunks : ∀ rows ∈ grid, ∃ xs : List α, xs.length = states * states ∧
      rows = Tensor.chunks states states xs) :
    HasRows stages states grid where
  fits := by
    refine Grid.fits_iff.mpr ⟨hlen, fun rows hrows => ?_⟩
    obtain ⟨xs, -, rfl⟩ := hchunks rows hrows
    exact Tensor.length_chunks states states xs
  rows := by
    intro rows hrows row hrow
    obtain ⟨xs, hxs, rfl⟩ := hchunks rows hrows
    exact Tensor.length_of_mem_chunks hxs hrow

/-- Rows that have been joined to one list can be cut out of it again. -/
theorem HasRows.chunks_flatten {stages states : Nat} {grid : Grid (List α)}
    (h : HasRows stages states grid) :
    (Tensor.chunks (states * states) (stages - 1) grid.flatten.flatten).map
      (Tensor.chunks states states) = grid := by
  obtain ⟨hlen, hcount⟩ := Grid.fits_iff.mp h.fits
  have hinner : ∀ rows ∈ grid, Tensor.chunks states states rows.flatten = rows := by
    intro rows hrows
    have hchunks := Tensor.chunks_flatten (h.rows rows hrows)
    rwa [hcount rows hrows] at hchunks
  have hwidth : ∀ row ∈ grid.map List.flatten, row.length = states * states := by
    intro row hrow
    obtain ⟨rows, hrows, rfl⟩ := List.mem_map.mp hrow
    have hlengths : rows.map List.length = List.replicate states states :=
      List.eq_replicate_iff.mpr ⟨by rw [List.length_map, hcount rows hrows], by
        simpa using h.rows rows hrows⟩
    rw [List.length_flatten, hlengths, List.sum_replicate_nat]
  have houter : Tensor.chunks (states * states) (stages - 1) grid.flatten.flatten
      = grid.map List.flatten := by
    have hchunks := Tensor.chunks_flatten hwidth
    rwa [List.length_map, hlen, ← List.flatten_flatten] at hchunks
  rw [houter, List.map_map]
  exact (List.map_congr_left hinner).trans (List.map_id' grid)

variable [Scalar α]

/-- The transition probabilities that are accepted have the shape of the model.  They
are ones, or have been looked through for negative ones. -/
theorem transitionGrid_hasRows {stages states : Nat} {given : Option (Tensor α)}
    {grid : Grid (List α)} (hrect : ∀ t, given = some t → t.IsRectangular)
    (h : transitionGrid stages states given = .ok grid) :
    HasRows stages states grid ∧ (grid = List.replicate (stages - 1) [[1]] ∨
      (grid.any fun rows => rows.any fun row => row.any fun p => decide (p < 0)) = false) := by
  cases given with
  | none =>
    simp only [transitionGrid] at h
    split at h
    · rename_i hstates
      split at h
      · cases h
        subst hstates
        refine ⟨⟨?_, ?_⟩, .inl rfl⟩
        · simp [Grid.fits]
        · simp
      · cases h
    · cases h
  | some t =>
    have ht : t.entries.length = t.shape.prod := hrect t rfl
    simp only [transitionGrid] at h
    split at h
    · cases h
    · rename_i grid' hgrid
      split at h
      · cases h
      · rename_i hsign
        cases h
        rw [Bool.not_eq_true] at hsign
        refine ⟨?_, .inr hsign⟩
        split at hgrid
        · -- one matrix for all stages
          rename_i hshape
          cases hgrid
          rw [hshape] at ht
          refine hasRows_of_chunks (by simp) fun rows hrows => ?_
          exact ⟨t.entries, by simpa using ht, List.eq_of_mem_replicate hrows⟩
        · split at hgrid
          · -- a matrix for each stage
            rename_i hshape
            cases hgrid
            rw [hshape] at ht
            refine hasRows_of_chunks (by simp) fun rows hrows => ?_
            obtain ⟨xs, hxs, rfl⟩ := List.mem_map.mp hrows
            exact ⟨xs, Tensor.length_of_mem_chunks (by simpa using ht) hxs, rfl⟩
          · cases hgrid

/-- The transition probabilities that are accepted are ones, or given ones not below zero. -/
theorem transitionGrid_mem {stages states : Nat} {given : Option (Tensor α)}
    {grid : Grid (List α)} (h : transitionGrid stages states given = .ok grid) :
    ∀ rows ∈ grid, ∀ row ∈ rows, ∀ p ∈ row,
      p = 1 ∨ ¬p < 0 ∧ ∃ t, given = some t ∧ p ∈ t.entries := by
  cases given with
  | none =>
    simp only [transitionGrid] at h
    split at h
    · split at h
      · cases h
        intro rows hrows row hrow p hp
        rw [List.eq_of_mem_replicate hrows, List.mem_singleton] at hrow
        rw [hrow, List.mem_singleton] at hp
        exact .inl hp
      · cases h
    · cases h
  | some t =>
    simp only [transitionGrid] at h
    split at h
    · cases h
    · rename_i grid' hgrid
      split at h
      · cases h
      · rename_i hsign
        cases h
        intro rows hrows row hrow p hp
        refine .inr ⟨fun hneg => hsign ?_, t, rfl, ?_⟩
        · exact List.any_eq_true.mpr ⟨rows, hrows, List.any_eq_true.mpr
            ⟨row, hrow, List.any_eq_true.mpr ⟨p, hp, decide_eq_true hneg⟩⟩⟩
        · split at hgrid
          · cases hgrid
            rw [List.eq_of_mem_replicate hrows] at hrow
            exact Tensor.mem_of_mem_chunks hrow hp
          · split at hgrid
            · cases hgrid
              obtain ⟨xs, hxs, rfl⟩ := List.mem_map.mp hrows
              exact Tensor.mem_of_mem_chunks hxs (Tensor.mem_of_mem_chunks hrow hp)
            · cases hgrid

/-- Transition probabilities of the shape of a model that are handed on as one array are
what they were, if they are accepted. -/
theorem transitionGrid_flatten {stages states : Nat} {grid : Grid (List α)}
    (h : HasRows stages states grid) :
    transitionGrid stages states (some ⟨[stages - 1, states, states], grid.flatten.flatten⟩)
      = if grid.any fun rows => rows.any fun row => row.any fun p => decide (p < 0) then
          .error (.misconfigured .negativeTransition)
        else .ok grid := by
  simp [transitionGrid, h.chunks_flatten]

/-- The initial distribution that is accepted has an entry per Markov state, and another
look finds no negative one. -/
theorem initialDistribution_length [Scalar.IsOrdered α] (hone : (0 : α) < 1) {states : Nat}
    (hstates : 1 ≤ states) {given : Option (List α)} {initial : List α}
    (h : initialDistribution states given = .ok initial) :
    initial.length = states ∧ (initial.any fun p => decide (p < 0)) = false := by
  cases given with
  | none =>
    simp only [initialDistribution] at h
    cases h
    refine ⟨by rw [List.length_cons, List.length_replicate]; omega, ?_⟩
    have hzero : ¬(0 : α) < 0 := fun h => Scalar.IsOrdered.lt_asymm _ _ h h
    simp [Scalar.IsOrdered.lt_asymm _ _ hone, hzero]
  | some xs =>
    simp only [initialDistribution] at h
    split at h
    · cases h
    · rename_i hlen
      split at h
      · cases h
      · rename_i hsign
        cases h
        exact ⟨not_not.mp hlen, Bool.not_eq_true _ ▸ hsign⟩

theorem initialDistribution_some {states : Nat} {initial : List α}
    (hlen : initial.length = states) (hsign : (initial.any fun p => decide (p < 0)) = false) :
    initialDistribution states (some initial) = .ok initial := by
  simp [initialDistribution, hlen, hsign]

end Rows

section Transition

variable {K : Type} [Field K] [LinearOrder K]

/-- Rows of probabilities, none of them negative. -/
structure IsTransition (stages states : Nat) (grid : Grid (List K)) : Prop
    extends HasRows stages states grid where
  nonneg : ∀ rows ∈ grid, ∀ row ∈ rows, ∀ p ∈ row, 0 ≤ p

end Transition

theorem count_spec {name : String} {g : Given Int} {n : Nat} (h : count name g = .ok n) :
    1 ≤ n := by
  unfold count at h
  obtain ⟨k, -, h⟩ := bind_eq_ok.mp h
  obtain ⟨hk, h⟩ := guard_eq_ok.mp h
  cases pure_eq_ok.mp h
  omega

theorem count_exactly (name : String) {n : Nat} (h : 1 ≤ n) :
    count name (Given.exactly (n : Int)) = .ok n := by
  have hn : ¬(n : Int) < 1 := by omega
  simp [count, Given.exactly, hn]
  rfl

section Problems

variable {α : Type}

/-- A problem knows what its model tells it, and is otherwise the builder's. -/
theorem buildProblem_spec {builder : Builder α} {stages t i : Nat} {sense : Sense}
    {bound : Option (Limit α)} {params : Named Value} {p : StageProblem α}
    (h : buildProblem builder stages sense bound params t i = .ok p) :
    ∃ q, builder t i = .ok (.problem q) ∧ p =
      (q.bind { sense, final := t + 1 == stages, bound, stage := .int t,
                markovState := .int i }).addParams params := by
  unfold buildProblem at h
  obtain ⟨built, hbuilt, h⟩ := bind_eq_ok.mp h
  cases built with
  | other name => cases h
  | problem q =>
    cases pure_eq_ok.mp h
    exact ⟨q, hbuilt, rfl⟩

theorem confidenceLevel_spec [Scalar α] {g : Given α} {level : α}
    (h : confidenceLevel g = .ok level) :
    0 < level ∧ level < 1 := by
  unfold confidenceLevel at h
  obtain ⟨a, -, h⟩ := bind_eq_ok.mp h
  split at h
  · rename_i hlevel
    cases pure_eq_ok.mp h
    exact hlevel
  · cases h

/-- All stage problems have the number of states that they share. -/
theorem commonStateCount_spec {problems : Grid (StageProblem α)} {n : Int}
    (h : commonStateCount problems = .ok n) {t i : Nat} {p : StageProblem α}
    (hp : problems.get? t i = some p) : p.stateCount = n := by
  simp only [commonStateCount] at h
  split at h
  · rename_i k hcounts
    cases h
    obtain ⟨row, hrow, hp⟩ := Grid.get?_eq_some.mp hp
    have hmem : p.stateCount ∈ (problems.flatten.map StageProblem.stateCount).eraseDups := by
      rw [List.mem_eraseDups]
      exact List.mem_map_of_mem
        (List.mem_flatten_of_mem (List.mem_of_getElem? hrow) (List.mem_of_getElem? hp))
    rw [hcounts] at hmem
    exact List.mem_singleton.mp hmem
  · cases h

/-- Scenario probabilities are those that are looked up, or else the problem's own, and
there is at least one. -/
theorem scenarioVector_spec {given : Option (Nat → Nat → Except Failure (List α))}
    {problems : Grid (StageProblem α)} {t i : Nat} {q : Tensor α}
    (h : scenarioVector given problems t i = .ok q) :
    ∃ p, problems.get? t i = some p ∧ p.probabilities.leading? = some q.size ∧ q.size ≠ 0 ∧
      (given = none ∧ q = p.probabilities ∨
        ∃ lookUp v, given = some lookUp ∧ lookUp t i = .ok v ∧ q = Tensor.vector v) := by
  unfold scenarioVector at h
  obtain ⟨p, hp, h⟩ := bind_eq_ok.mp h
  refine ⟨p, Grid.entry_eq_ok.mp hp, ?_⟩
  have hsize : ∀ (r : Tensor α) (n : Nat) (e : Failure),
      (do
        if r.size ≠ n ∨ r.size = 0 then throw e
        return r : Except Failure (Tensor α)) = .ok q → q = r ∧ n = q.size ∧ q.size ≠ 0 := by
    intro r n e h
    obtain ⟨hsize, h⟩ := guard_eq_ok.mp h
    cases pure_eq_ok.mp h
    rw [not_or, not_not] at hsize
    exact ⟨rfl, hsize.1.symm, hsize.2⟩
  cases hn : p.probabilities.leading? with
  | none =>
    rw [hn] at h
    cases given with
    | none => cases h
    | some lookUp =>
      obtain ⟨xs, -, h⟩ := bind_eq_ok.mp h
      cases h
  | some n =>
    rw [hn] at h
    rw [Option.some_inj]
    cases given with
    | none =>
      obtain ⟨rfl, hcount, hsome⟩ := hsize _ n _ h
      exact ⟨hcount, hsome, .inl ⟨rfl, rfl⟩⟩
    | some lookUp =>
      obtain ⟨xs, hxs, h⟩ := bind_eq_ok.mp h
      obtain ⟨rfl, hcount, hsome⟩ := hsize _ n _ h
      exact ⟨hcount, hsome, .inr ⟨lookUp, xs, rfl, hxs, rfl⟩⟩

/-- The entries of a vector stand for it. -/
theorem scenarioVector_entries {scenarios : Grid (Tensor α)} {problems : Grid (StageProblem α)}
    {t i : Nat} {v : List α} (hv : scenarios.get? t i = some (Tensor.vector v))
    {p : StageProblem α} (hp : problems.get? t i = some p)
    (hn : p.probabilities.leading? = some (Tensor.vector v).size)
    (hsome : (Tensor.vector v).size ≠ 0) :
    scenarioVector (some fun t i => return (← scenarios.entry t i).entries) problems t i
      = .ok (Tensor.vector v) := by
  have hsize : ¬((Tensor.vector v).size ≠ (Tensor.vector v).size ∨ (Tensor.vector v).size = 0) := by
    simpa using hsome
  simp only [scenarioVector, Grid.entry_eq_ok.mpr hv, Grid.entry_eq_ok.mpr hp, hn, ok_bind,
    pure_bind]
  exact if_neg hsize

theorem get?_withScenarios {problems : Grid (StageProblem α)} {scenarios : Grid (Tensor α)}
    {t i : Nat} {p : StageProblem α} :
    (withScenarios problems scenarios).get? t i = some p
      ↔ ∃ built q, problems.get? t i = some built ∧ scenarios.get? t i = some q ∧
          p = { built with probabilities := q } := by
  constructor
  · intro h
    obtain ⟨row, hrow, hp⟩ := Grid.get?_eq_some.mp h
    obtain ⟨builts, qs, hbuilts, hqs, rfl⟩ := List.getElem?_zipWith_eq_some.mp hrow
    obtain ⟨built, q, hbuilt, hq, rfl⟩ := List.getElem?_zipWith_eq_some.mp hp
    exact ⟨built, q, Grid.get?_eq_some.mpr ⟨builts, hbuilts, hbuilt⟩,
      Grid.get?_eq_some.mpr ⟨qs, hqs, hq⟩, rfl⟩
  · rintro ⟨built, q, hbuilt, hq, rfl⟩
    obtain ⟨builts, hbuilts, hbuilt⟩ := Grid.get?_eq_some.mp hbuilt
    obtain ⟨qs, hqs, hq⟩ := Grid.get?_eq_some.mp hq
    exact Grid.get?_eq_some.mpr ⟨_, List.getElem?_zipWith_eq_some.mpr ⟨_, _, hbuilts, hqs, rfl⟩,
      List.getElem?_zipWith_eq_some.mpr ⟨_, _, hbuilt, hq, rfl⟩⟩

end Problems

end Blueprint

/-! ## Configurations that pass the checks -/

section Passing

variable {α : Type} [Scalar α]

/-- A configuration that passes all checks of a blueprint, with the stage problems that
its builder yields and the number of states that they share. -/
structure Configuration.Passes (c : Configuration α) (built : Grid (StageProblem α)) (n : Int) :
    Prop where
  stages : 1 ≤ c.stageCount
  states : 1 ≤ c.markovCount
  confidence : 0 < c.confidence ∧ c.confidence < 1
  measure : c.measure.rule.isForeign = false
  transition : Blueprint.HasRows c.stageCount c.markovCount c.transition
  transitionSign : (c.transition.any fun rows => rows.any fun row => row.any fun p =>
    decide (p < 0)) = false
  initialLength : c.initial.length = c.markovCount
  initialSign : (c.initial.any fun p => decide (p < 0)) = false
  build : Grid.ofFnM c.stageCount c.markovCount
    (Blueprint.buildProblem c.builder c.stageCount c.sense c.bound c.params) = .ok built
  stateCount : Blueprint.commonStateCount built = .ok n
  dimension : (c.initialState.length : Int) = n
  scenarios : c.scenarios.fits c.stageCount c.markovCount = true
  scenarioSizes : ∀ t i q, c.scenarios.get? t i = some q →
    ∃ p, built.get? t i = some p ∧ p.probabilities.leading? = some q.size ∧ q.size ≠ 0

/-- The model of a configuration and of the stage problems that its builder yields,
without cuts, figures and solutions. -/
def Configuration.fresh (c : Configuration α) (built : Grid (StageProblem α)) (n : Int) :
    Model α where
  configuration := c
  stateCount := n
  problems := Blueprint.withScenarios built c.scenarios
  stores := Grid.ofFn c.stageCount c.markovCount fun _ _ => Store.empty n

/-- What a blueprint makes, check by check: the arguments that were read, and the model with
the stage problems that its builder yields. -/
structure Blueprint.Yields (b : Blueprint α) (m : Model α) (given : Option (Tensor α))
    (start : Option (List α)) (built : Grid (StageProblem α)) : Prop where
  builder : b.builder = some m.configuration.builder
  stages : count "n_stages" b.stageCount = .ok m.stageCount
  states : count "n_markov_states" b.markovCount = .ok m.markovCount
  confidence : confidenceLevel b.confidence = .ok m.configuration.confidence
  measure : m.configuration.measure.rule.isForeign = false
  givenTransition : b.transition = .ok given
  transition : transitionGrid m.stageCount m.markovCount given = .ok m.configuration.transition
  givenInitial : b.initial = .ok start
  initial : initialDistribution m.markovCount start = .ok m.configuration.initial
  build : Grid.ofFnM m.stageCount m.markovCount
    (buildProblem m.configuration.builder m.stageCount m.configuration.sense m.configuration.bound
      m.configuration.params) = .ok built
  stateCount : commonStateCount built = .ok m.stateCount
  dimension : (m.configuration.initialState.length : Int) = m.stateCount
  scenarios : Grid.ofFnM m.stageCount m.markovCount (scenarioVector b.scenarios built)
    = .ok m.configuration.scenarios
  fresh : m = m.configuration.fresh built m.stateCount

/-- The parts of a model that has been made, in any arithmetic. -/
theorem Blueprint.model_spec {b : Blueprint α} {m : Model α} (h : b.model = .ok m) :
    ∃ given start built, b.Yields m given start built := by
  unfold Blueprint.model at h
  cases hbuilder : b.builder with
  | none =>
    rw [hbuilder] at h
    cases h
  | some builder =>
    simp only [hbuilder, pure_bind] at h
    obtain ⟨stages, hstages, h⟩ := bind_eq_ok.mp h
    obtain ⟨states, hstates, h⟩ := bind_eq_ok.mp h
    obtain ⟨confidence, hconfidence, h⟩ := bind_eq_ok.mp h
    obtain ⟨hforeign, h⟩ := guard_eq_ok.mp h
    obtain ⟨sense, -, h⟩ := bind_eq_ok.mp h
    obtain ⟨initialState, -, h⟩ := bind_eq_ok.mp h
    obtain ⟨bound, -, h⟩ := bind_eq_ok.mp h
    obtain ⟨params, -, h⟩ := bind_eq_ok.mp h
    obtain ⟨given, hgiven, h⟩ := bind_eq_ok.mp h
    obtain ⟨transition, htransition, h⟩ := bind_eq_ok.mp h
    obtain ⟨start, hstart, h⟩ := bind_eq_ok.mp h
    obtain ⟨initial, hinitial, h⟩ := bind_eq_ok.mp h
    obtain ⟨built, hbuilt, h⟩ := bind_eq_ok.mp h
    obtain ⟨stateCount, hstateCount, h⟩ := bind_eq_ok.mp h
    obtain ⟨hdimension, h⟩ := guard_eq_ok.mp h
    obtain ⟨scenarios, hscenarios, h⟩ := bind_eq_ok.mp h
    cases pure_eq_ok.mp h
    exact ⟨given, start, built,
      { builder := hbuilder
        stages := hstages
        states := hstates
        confidence := hconfidence
        measure := by simpa using hforeign
        givenTransition := hgiven
        transition := htransition
        givenInitial := hstart
        initial := hinitial
        build := hbuilt
        stateCount := hstateCount
        dimension := not_not.mp hdimension
        scenarios := hscenarios
        fresh := rfl }⟩

namespace Blueprint.Yields

variable {b : Blueprint α} {m : Model α} {given : Option (Tensor α)} {start : Option (List α)}
  {built : Grid (StageProblem α)}

theorem problems (h : b.Yields m given start built) :
    m.problems = withScenarios built m.configuration.scenarios := by
  rw [h.fresh]
  rfl

theorem stores (h : b.Yields m given start built) :
    m.stores = Grid.ofFn m.stageCount m.markovCount fun _ _ => Store.empty m.stateCount := by
  rw [h.fresh]
  rfl

end Blueprint.Yields

/-- The configuration of a model that has been made passes the checks of a blueprint, and
the model is a fresh one. -/
theorem Blueprint.exists_fresh [Scalar.IsOrdered α] (hone : (0 : α) < 1) {b : Blueprint α}
    {m : Model α} (hrect : ∀ t, b.transition = .ok (some t) → t.IsRectangular)
    (h : b.model = .ok m) : ∃ built, m.configuration.Passes built m.stateCount ∧
      m = m.configuration.fresh built m.stateCount := by
  obtain ⟨given, start, built, hm⟩ := model_spec h
  obtain ⟨hfits, hentries⟩ := Grid.ofFnM_eq_ok.mp hm.scenarios
  obtain ⟨hrows, hsign⟩ :=
    transitionGrid_hasRows (fun t ht => hrect t (ht ▸ hm.givenTransition)) hm.transition
  obtain ⟨hlength, hnonneg⟩ := initialDistribution_length hone (count_spec hm.states) hm.initial
  refine ⟨built,
    { stages := count_spec hm.stages
      states := count_spec hm.states
      confidence := confidenceLevel_spec hm.confidence
      measure := hm.measure
      transition := hrows
      transitionSign := ?_
      initialLength := hlength
      initialSign := hnonneg
      build := hm.build
      stateCount := hm.stateCount
      dimension := hm.dimension
      scenarios := hfits
      scenarioSizes := fun t i q hq => ?_ }, hm.fresh⟩
  · rcases hsign with hones | hsign
    · -- the ones of an omitted array are not below zero
      rw [hones]
      simp [Scalar.IsOrdered.lt_asymm _ _ hone]
    · exact hsign
  · obtain ⟨p, hp, hleading, hsome, -⟩ := scenarioVector_spec (hentries t i q hq)
    exact ⟨p, hp, hleading, hsome⟩

/-- The model of a configuration has the counts and the transition probabilities of the
configuration. -/
theorem Configuration.rebuild_shape {c : Configuration α} {made : Model α}
    (hrows : Blueprint.HasRows c.stageCount c.markovCount c.transition) (h : c.rebuild = .ok made) :
    made.stageCount = c.stageCount ∧ made.markovCount = c.markovCount ∧
      made.configuration.transition = c.transition := by
  have hcount : ∀ {name : String} {n k : Nat},
      Blueprint.count name (Given.exactly (n : Int)) = .ok k → k = n := by
    intro name n k hk
    obtain ⟨_, ⟨⟩, hk⟩ := bind_eq_ok.mp hk
    obtain ⟨-, hk⟩ := guard_eq_ok.mp hk
    cases pure_eq_ok.mp hk
    exact Int.toNat_natCast n
  obtain ⟨given, start, built, hmade⟩ := Blueprint.model_spec h
  have hS : made.stageCount = c.stageCount := hcount hmade.stages
  have hM : made.markovCount = c.markovCount := hcount hmade.states
  have htransition := hmade.transition
  cases hmade.givenTransition
  rw [hS, hM, Blueprint.transitionGrid_flatten hrows] at htransition
  split at htransition
  · cases htransition
  · exact ⟨hS, hM, (Except.ok.inj htransition).symm⟩

namespace Configuration

variable {c : Configuration α} {built : Grid (StageProblem α)} {n : Int}

/-- A configuration whose measure has other scratch buffers. -/
def withBuffers {α : Type} (c : Configuration α) (buffers : Buffers α) : Configuration α :=
  { c with measure := { c.measure with buffers } }

/-- No check looks at the scratch buffers of a measure. -/
theorem Passes.withBuffers (h : c.Passes built n) (buffers : Buffers α) :
    (c.withBuffers buffers).Passes built n where
  stages := h.stages
  states := h.states
  confidence := h.confidence
  measure := h.measure
  transition := h.transition
  transitionSign := h.transitionSign
  initialLength := h.initialLength
  initialSign := h.initialSign
  build := h.build
  stateCount := h.stateCount
  dimension := h.dimension
  scenarios := h.scenarios
  scenarioSizes := h.scenarioSizes

/-- The fresh model is what a configuration that passes the checks is rebuilt to. -/
theorem Passes.rebuild_eq (h : c.Passes built n)
    (hvectors : ∀ t i q, c.scenarios.get? t i = some q → ∃ v, q = Tensor.vector v) :
    c.rebuild = .ok (c.fresh built n) := by
  have hconfidence : Blueprint.confidenceLevel (Given.exactly c.confidence) = .ok c.confidence := by
    simp [Blueprint.confidenceLevel, Given.exactly, h.confidence]
    rfl
  have htransition := Blueprint.transitionGrid_flatten h.transition
  rw [h.transitionSign, if_neg Bool.false_ne_true] at htransition
  have hinitial := Blueprint.initialDistribution_some h.initialLength h.initialSign
  have hscenarios : Grid.ofFnM c.stageCount c.markovCount
      (Blueprint.scenarioVector
        (some fun t i => return (← c.scenarios.entry t i).entries) built)
      = .ok c.scenarios := by
    refine Grid.ofFnM_eq_ok.mpr ⟨h.scenarios, fun t i q hq => ?_⟩
    obtain ⟨v, rfl⟩ := hvectors t i q hq
    obtain ⟨p, hp, hsize, hsome⟩ := h.scenarioSizes t i _ hq
    exact Blueprint.scenarioVector_entries hq hp hsize hsome
  have hdimension : ¬(c.initialState.length : Int) ≠ n := not_not.mpr h.dimension
  have hstages := Blueprint.count_exactly "n_stages" h.stages
  have hstates := Blueprint.count_exactly "n_markov_states" h.states
  unfold rebuild blueprint Blueprint.model
  simp only [pure_bind, ok_bind, hconfidence, h.measure, hstages, hstates, htransition, hinitial,
    h.build, h.stateCount, hscenarios, if_neg hdimension]
  rfl

end Configuration

end Passing

/-! ## Models that have been made -/

section Made

variable {K : Type} [Field K] [LinearOrder K]

/-- A model as it has been made of stage problems: its parts fit together, and
it has no cuts, figures or solutions. -/
structure Model.IsMadeOf (m : Model K) (built : Grid (StageProblem K)) : Prop where
  stages : 1 ≤ m.stageCount
  states : 1 ≤ m.markovCount
  confidence : 0 < m.configuration.confidence ∧ m.configuration.confidence < 1
  measure : m.configuration.measure.rule.isForeign = false
  transition : Blueprint.IsTransition m.stageCount m.markovCount m.configuration.transition
  initialLength : m.configuration.initial.length = m.markovCount
  initialNonneg : ∀ p ∈ m.configuration.initial, 0 ≤ p
  build : Grid.ofFnM m.stageCount m.markovCount
    (Blueprint.buildProblem m.configuration.builder m.stageCount m.configuration.sense
      m.configuration.bound m.configuration.params) = .ok built
  stateCount : Blueprint.commonStateCount built = .ok m.stateCount
  dimension : (m.configuration.initialState.length : Int) = m.stateCount
  scenarios : m.configuration.scenarios.fits m.stageCount m.markovCount = true
  scenarioSizes : ∀ t i q, m.configuration.scenarios.get? t i = some q →
    ∃ p, built.get? t i = some p ∧ p.probabilities.leading? = some q.size ∧ q.size ≠ 0
  problems : m.problems = Blueprint.withScenarios built m.configuration.scenarios
  stores : m.stores = Grid.ofFn m.stageCount m.markovCount fun _ _ => Store.empty m.stateCount
  figures : m.figures = {}
  firstStage : m.firstStage = []

/-- What a blueprint makes is made of the problems that its builder yields. -/
theorem Blueprint.exists_built [IsStrictOrderedRing K] {b : Blueprint K} {m : Model K}
    (hrect : ∀ t, b.transition = .ok (some t) → t.IsRectangular) (h : b.model = .ok m) :
    ∃ built, m.IsMadeOf built := by
  obtain ⟨built, hpasses, hm⟩ := exists_fresh zero_lt_one hrect h
  exact ⟨built,
    { stages := hpasses.stages
      states := hpasses.states
      confidence := hpasses.confidence
      measure := hpasses.measure
      transition := ⟨hpasses.transition, by simpa using hpasses.transitionSign⟩
      initialLength := hpasses.initialLength
      initialNonneg := by simpa using hpasses.initialSign
      build := hpasses.build
      stateCount := hpasses.stateCount
      dimension := hpasses.dimension
      scenarios := hpasses.scenarios
      scenarioSizes := hpasses.scenarioSizes
      problems := by rw [hm]; rfl
      stores := by rw [hm]; rfl
      figures := by rw [hm]; rfl
      firstStage := by rw [hm]; rfl }⟩

namespace Model.IsMadeOf

variable {m : Model K} {built : Grid (StageProblem K)}

/-- The problems of a model that has been made, with what they know of it. -/
theorem problem_spec (h : m.IsMadeOf built) {t i : Nat} {p : StageProblem K}
    (hp : m.problems.get? t i = some p) :
    p.setting = { sense := m.configuration.sense, final := t + 1 == m.stageCount,
                  bound := m.configuration.bound, stage := .int t, markovState := .int i } ∧
      p.stateCount = m.configuration.initialState.length ∧
      m.configuration.scenarios.get? t i = some p.probabilities := by
  rw [h.problems, Blueprint.get?_withScenarios] at hp
  obtain ⟨p₀, q, hp₀, hscenarios, rfl⟩ := hp
  have hcount := Blueprint.commonStateCount_spec h.stateCount hp₀
  obtain ⟨source, -, rfl⟩ :=
    Blueprint.buildProblem_spec ((Grid.ofFnM_eq_ok.mp h.build).2 t i p₀ hp₀)
  exact ⟨rfl, hcount.trans h.dimension.symm, hscenarios⟩

/-- There is a problem wherever there are scenarios. -/
theorem exists_problem (h : m.IsMadeOf built) {t i : Nat} {q : Tensor K}
    (hq : m.configuration.scenarios.get? t i = some q) :
    ∃ p, m.problems.get? t i = some p ∧ p.probabilities = q := by
  obtain ⟨p, hp, -⟩ := h.scenarioSizes t i q hq
  rw [h.problems]
  exact ⟨_, Blueprint.get?_withScenarios.mpr ⟨p, q, hp, hq, rfl⟩, rfl⟩

theorem store_cuts (h : m.IsMadeOf built) {t i : Nat} {s : Store K}
    (hs : m.stores.get? t i = some s) : s.cuts = [] := by
  rw [h.stores] at hs
  rw [Grid.ofFn_eq_some hs]
  rfl

theorem passes (h : m.IsMadeOf built) : m.configuration.Passes built m.stateCount where
  stages := h.stages
  states := h.states
  confidence := h.confidence
  measure := h.measure
  transition := h.transition.toHasRows
  transitionSign := by simpa using h.transition.nonneg
  initialLength := h.initialLength
  initialSign := by simpa using h.initialNonneg
  build := h.build
  stateCount := h.stateCount
  dimension := h.dimension
  scenarios := h.scenarios
  scenarioSizes := h.scenarioSizes

/-- The configuration of a model that has been made passes all checks again,
whatever the scratch buffers of its measure hold, and the model made of it is
that model with these buffers. -/
theorem rebuild_eq (h : m.IsMadeOf built)
    (hvectors : ∀ t i q, m.configuration.scenarios.get? t i = some q → ∃ v, q = Tensor.vector v)
    (buffers : Buffers K) :
    (m.configuration.withBuffers buffers).rebuild
      = .ok { m with configuration := m.configuration.withBuffers buffers } := by
  rw [(h.passes.withBuffers buffers).rebuild_eq hvectors, h.problems, h.stores, h.figures,
    h.firstStage]
  rfl

end Model.IsMadeOf

end Made

end Multistage
