/-
Multistage.Proofs.Policy.Bound — loading cuts and setting the bound.

Selections pick cuts that a store has, so loading them keeps cuts valid.  The
first stage is solved with valid cuts, so its objectives lie below the true
values, and their expectation, which is the bound, lies below the true value of
the model.
-/
import Multistage.Proofs.Cut.LevelOne
import Multistage.Proofs.Policy.Soundness

namespace Multistage

/-! ## Selections -/

namespace Selection

theorem mem_of_select {α : Type} {selection : Selection} {s : Store α} {cuts : List (Cut α)}
    (h : selection.select s = .ok cuts) : ∀ c ∈ cuts, c ∈ s.cuts :=
  fun _ hc => (select_sublist h).subset hc

end Selection

namespace Decisions

variable {K : Type} [Field K] [LinearOrder K] {D : Decisions K} {m₀ : Model K}

theorem reloadAt_sound (selection : Selection) (recount : Bool) (t i : Nat) :
    Transition.Ensures (D.IsSound m₀) (Model.reloadAt selection recount t i) fun _ => True := by
  have hrecount : ∀ sense, Transition.Ensures (D.IsSound m₀)
      (Model.onStore t i (modify (Store.recount sense))) fun _ => True :=
    fun sense => onStore_sound (Transition.Ensures.modify fun s hs => hs)
  have hload : Transition.Ensures (D.IsSound m₀) (do
      let store ← Transition.outcome ((← get).stores.entry t i)
      let cuts ← Transition.outcome (selection.select store)
      Model.onProblem t i fun p => p.setCuts cuts) fun _ => True := by
    refine Transition.Ensures.get.bind fun m hm => ?_
    refine (Transition.Ensures.outcome fun s hs => hm.stored t i s (Grid.entry_eq_ok.mp hs)).bind ?_
    intro s hs
    refine (Transition.Ensures.outcome fun cuts hcuts c hc =>
      hs c (Selection.mem_of_select hcuts c hc)).bind fun cuts hcuts => ?_
    refine onProblem_sound fun p p' _ hp' => ?_
    exact ⟨cuts, (StageProblem.setCuts_eq_ok.mp hp').2, hcuts⟩
  unfold Model.reloadAt
  refine Transition.Ensures.get.bind fun m hm => ?_
  split
  · exact (hrecount _).bind fun _ _ => hload
  · exact hload

/-- Loading picks among valid cuts. -/
theorem reload_sound (selection : Selection) (recount : Bool) :
    Transition.Ensures (D.IsSound m₀) (Model.reload selection recount) fun _ => True := by
  unfold Model.reload
  refine Transition.Ensures.get.bind fun m _ => ?_
  exact Transition.Ensures.forM fun e _ => reloadAt_sound selection recount e.1 e.2

/-! ## The first stage -/

section FirstStage

variable {built : Grid (StageProblem K)} (hm₀ : m₀.IsMadeOf built) (hs : m₀.IsStochastic)
  (hD : D.Describes m₀)

include hm₀ hs hD

theorem firstStageSolutions_spec {m : Model K} (hm : D.IsSound m₀ m)
    {solutions : List (List (StageSolution K))} (h : m.firstStageSolutions = .ok solutions) :
    D.AreFirstStage m₀ solutions := by
  obtain ⟨buffers, hbuffers⟩ := hm.configuration
  unfold Model.firstStageSolutions Model.markovCount at h
  rw [hbuffers] at h
  dsimp only [Configuration.withBuffers] at h
  have hmem := (List.forall₂_and_left _ _).mpr ⟨fun i hi => hi, mapM_eq_ok.mp h⟩
  refine hmem.imp fun i row hrow => ?_
  obtain ⟨hi, hrow⟩ := hrow
  have hi : i < m₀.markovCount := List.mem_range.mp hi
  obtain ⟨p, hp, hrow⟩ := bind_eq_ok.mp hrow
  have hp := Grid.entry_eq_ok.mp hp
  obtain ⟨hvector, -⟩ := Model.scenarioWeights_spec hm₀ hs hm₀.stages hi
  have hcount : p.scenarioCount = (m₀.scenarioWeights 0 i).length := by
    obtain ⟨p₀, cuts, hp₀, rfl, -⟩ := hm.problems 0 i p hp
    obtain ⟨-, -, hscenarios⟩ := hm₀.problem_spec hp₀
    rw [hvector] at hscenarios
    rw [StageProblem.scenarioCount, ← Option.some.inj hscenarios]
    rfl
  rw [firstValues, List.forall₂_map_right_iff, ← hcount]
  have hmem := (List.forall₂_and_left _ _).mpr ⟨fun s hs => hs, mapM_eq_ok.mp hrow⟩
  refine List.Forall₂.flip (hmem.imp fun s sol hsol => ?_)
  obtain ⟨hs, hsol⟩ := hsol
  have houtcome : (i, s) ∈ m₀.outcomes 0 := by
    refine Model.mem_outcomes.mpr ⟨hi, _, hvector, ?_⟩
    exact lt_of_lt_of_eq (List.mem_range.mp hs) hcount
  obtain ⟨-, -, hbelow⟩ := solution_below hm₀ hD hm houtcome hp hsol
  have hself := hbelow m₀.configuration.initialState rfl
  rwa [Scalar.dot_zipWith_sub rfl, sub_self, add_zero] at hself

/-- Solving the first stage leaves solutions below the true values. -/
theorem solveFirstStage_spec {m : Model K} (hm : D.IsSound m₀ m) :
    D.IsSound m₀ (Model.solveFirstStage.perform m).2 ∧
      ∀ solutions, (Model.solveFirstStage.perform m).1 = .ok solutions →
        D.AreFirstStage m₀ (Model.solveFirstStage.perform m).2.firstStage := by
  unfold Model.solveFirstStage
  rw [Transition.perform_bind, Transition.perform_get]
  dsimp only
  rw [Transition.perform_bind, Transition.perform_outcome]
  cases h : m.firstStageSolutions with
  | error e => exact ⟨hm, by simp⟩
  | ok solutions =>
    have hbelow := firstStageSolutions_spec hm₀ hs hD hm h
    exact ⟨{ hm with firstStage := .inr hbelow }, fun _ _ => hbelow⟩

theorem solveFirstStage_sound :
    Transition.Ensures (D.IsSound m₀) Model.solveFirstStage fun _ => True :=
  fun _ hm => ⟨(solveFirstStage_spec hm₀ hs hD hm).1, fun _ _ => True.intro⟩

end FirstStage

/-! ## The bound -/

theorem boundOf_eq (ps es : List K) : Model.boundOf ps es = Risk.expectation ps es := by
  have hfold : ∀ f : K → K × K → K, (∀ sum p e, f sum (p, e) = sum + p * e) →
      ∀ sum, (ps.zip es).foldl f sum = sum + Risk.expectation ps es := by
    intro f hf
    induction ps generalizing es with
    | nil => simp [Risk.expectation]
    | cons p ps ih =>
      cases es with
      | nil => simp [Risk.expectation]
      | cons e es =>
        intro sum
        rw [List.zip_cons_cons, List.foldl_cons, ih, hf]
        simp [Risk.expectation, add_assoc]
  refine (hfold _ (fun sum p e => ?_) 0).trans (zero_add _)
  by_cases hp : p = 0
  · simp [hp]
  · simp [hp]

theorem expectedObjective_eq (q : List K) (solutions : List (StageSolution K)) :
    Model.expectedObjective q solutions
      = Risk.expectation q (solutions.map StageSolution.objective) := by
  rw [Model.expectedObjective, Scalar.total_exact, Risk.expectation, List.zipWith_map_right]

theorem forall₂_zipWith_map {α β γ δ : Type} {R : γ → δ → Prop} {f : α → β → γ} {g : α → δ}
    {as : List α} {bs : List β} (h : List.Forall₂ (fun a b => R (f a b) (g a)) as bs) :
    List.Forall₂ R (List.zipWith f as bs) (as.map g) := by
  induction h with
  | nil => exact .nil
  | cons hab _ ih => exact .cons hab ih

section Bound

variable {built : Grid (StageProblem K)} (hm₀ : m₀.IsMadeOf built) (hs : m₀.IsStochastic)
  (hD : D.Describes m₀)

include hm₀ hs

theorem firstRows_eq :
    (m₀.configuration.scenarios[0]?).getD []
      = (List.range m₀.markovCount).map fun i => Tensor.vector (m₀.scenarioWeights 0 i) := by
  obtain ⟨hlen, hrows⟩ := Grid.fits_iff.mp hm₀.scenarios
  have hpos : 0 < m₀.configuration.scenarios.length := hlen ▸ hm₀.stages
  have hrow := hrows _ (List.getElem_mem hpos)
  rw [List.getElem?_eq_getElem hpos, Option.getD_some]
  refine List.ext_getElem (by simpa using hrow) fun i h₁ h₂ => ?_
  obtain ⟨hvector, -⟩ := Model.scenarioWeights_spec hm₀ hs hm₀.stages (hrow ▸ h₁)
  obtain ⟨row, hfirst, hi⟩ := Grid.get?_eq_some.mp hvector
  rw [List.getElem?_eq_getElem hpos] at hfirst
  cases hfirst
  rw [List.getElem?_eq_getElem h₁] at hi
  simpa using Option.some.inj hi

/-- The expectation of objectives that lie below the true values lies below the
true value of the model. -/
theorem boundOf_below [IsStrictOrderedRing K] {solutions : List (List (StageSolution K))}
    (h : D.AreFirstStage m₀ solutions) :
    m₀.configuration.sense.below
      (Model.boundOf m₀.configuration.initial
        (List.zipWith (fun (q : Tensor K) => Model.expectedObjective q.entries)
          ((m₀.configuration.scenarios[0]?).getD []) solutions))
      (D.optimalValue m₀) := by
  rw [firstRows_eq hm₀ hs, List.zipWith_map_left, boundOf_eq, optimalValue,
    Risk.expectation_eq_dot, Risk.expectation_eq_dot]
  refine Sense.below_dot hm₀.initialNonneg (forall₂_zipWith_map ?_)
  have hmem := (List.forall₂_and_left _ _).mpr ⟨fun i hi => hi, h⟩
  refine hmem.imp fun i row hrow => ?_
  obtain ⟨hi, hrow⟩ := hrow
  obtain ⟨-, hnonneg, -⟩ := Model.scenarioWeights_spec hm₀ hs hm₀.stages (List.mem_range.mp hi)
  rw [expectedObjective_eq, Risk.expectation_eq_dot, Risk.expectation_eq_dot]
  exact Sense.below_dot hnonneg (List.forall₂_map_left_iff.mpr hrow)

include hD

/-- The bound is built from solutions of the first stage, those at hand or new
ones. -/
theorem setBound_sound [IsStrictOrderedRing K] :
    Transition.Ensures (D.IsSound m₀) Model.setBound fun _ => True := by
  -- with solutions at hand, the bound is their expectation
  have hset : Transition.Ensures (fun m => D.IsSound m₀ m ∧ D.AreFirstStage m₀ m.firstStage) (do
      let m ← get
      let rows := (m.configuration.scenarios[0]?).getD []
      Transition.outcome (Model.checkExpectation m.configuration.initial rows)
      let bound := Model.boundOf m.configuration.initial
        (List.zipWith (fun (q : Tensor K) => Model.expectedObjective q.entries) rows m.firstStage)
      set { m with figures := m.figures.withBound bound }
      return bound) fun _ => True := by
    refine Transition.Ensures.get.bind fun m hm => ?_
    obtain ⟨hm, hfirst⟩ := hm
    refine (Transition.Ensures.outcome fun _ _ => True.intro).bind fun _ _ => ?_
    refine (Transition.Ensures.set ⟨{ hm with bound := fun b hb => ?_ }, hfirst⟩).bind
      fun _ _ => Transition.Ensures.pure True.intro
    obtain ⟨buffers, hbuffers⟩ := hm.configuration
    cases hb
    rw [hbuffers]
    exact boundOf_below hm₀ hs hfirst
  intro m hm
  unfold Model.setBound
  rw [Transition.perform_bind, Transition.perform_get]
  dsimp only
  refine ⟨?_, fun _ _ => True.intro⟩
  split
  · obtain ⟨hsound, hfirst⟩ := solveFirstStage_spec hm₀ hs hD hm
    have hdiscard := Transition.perform_discard Model.solveFirstStage m
    cases hrun : (Model.solveFirstStage.perform m).1 with
    | error e =>
      rw [hrun] at hdiscard
      rw [Transition.perform_bind_error hdiscard]
      exact hsound
    | ok solutions =>
      rw [hrun] at hdiscard
      rw [Transition.perform_bind_ok hdiscard]
      exact (hset _ ⟨hsound, hfirst solutions hrun⟩).1.1
  · rename_i hsome
    have hfirst := hm.firstStage.resolve_left fun hnil => hsome (by rw [hnil]; rfl)
    exact (hset m ⟨hm, hfirst⟩).1.1

end Bound

end Decisions

end Multistage
