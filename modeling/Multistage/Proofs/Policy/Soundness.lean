/-
Multistage.Proofs.Policy.Soundness — what the computation of a policy preserves.

`IsSound` is the invariant of a policy's computation: a model still has the
data that it was made with, all of its cuts are valid, in the stores and in the
stage problems, and its first-stage solutions and its bound lie below the true
values.  Each operation on a model preserves it, whether it succeeds or fails.

Only two things are ever added to a model.  New cuts are built from the
solutions of children, whose problems have valid cuts loaded
(`addCutAt_sound`); and bounds are built from solutions of the first stage
(`setBound_sound`).  Everything else moves cuts that are there already.
-/
import Multistage.Policy.Bound
import Multistage.Proofs.Policy.Children
import Multistage.Proofs.Stage.Problem
import Multistage.Proofs.Transition

namespace Multistage

variable {K : Type} [Field K] [LinearOrder K]

/-- An operation on the model of a play preserves what it preserves of models. -/
theorem Play.onModel_ensures {α β : Type} {inv : Model α → Prop} {post : β → Prop}
    {op : Transition (Model α) β} (h : Transition.Ensures inv op post) :
    Transition.Ensures (fun p : Play α => inv p.model) (Play.onModel op) post :=
  Transition.Ensures.focus (fun _ hp => hp) h fun _ _ _ hm => hm

namespace Decisions

variable (D : Decisions K) (m₀ : Model K)

/-- Solutions of the first stage whose objectives lie below the true values, for
all Markov states and scenarios. -/
def AreFirstStage (solutions : List (List (StageSolution K))) : Prop :=
  List.Forall₂ (fun i row =>
    List.Forall₂ (fun (sol : StageSolution K) v => m₀.configuration.sense.below sol.objective v)
      row (D.firstValues m₀ i)) (List.range m₀.markovCount) solutions

/-- Whether a model that was made as `m₀` has valid cuts and figures. -/
structure IsSound (m : Model K) : Prop where
  configuration : ∃ buffers, m.configuration = m₀.configuration.withBuffers buffers
  stored : ∀ t i s, m.stores.get? t i = some s → ∀ c ∈ s.cuts, D.IsValidCut m₀ t i c
  problems : ∀ t i p, m.problems.get? t i = some p →
    ∃ p₀ cuts, m₀.problems.get? t i = some p₀ ∧ p = { p₀ with cuts := cuts } ∧
      ∀ c ∈ cuts, D.IsValidCut m₀ t i c
  firstStage : m.firstStage = [] ∨ D.AreFirstStage m₀ m.firstStage
  bound : ∀ b, m.figures.bound = some b →
    m₀.configuration.sense.below b (D.optimalValue m₀)

variable {D m₀}

/-! ## What a model was made with -/

section Data

variable {m : Model K} (hm : D.IsSound m₀ m)

include hm

theorem IsSound.sense_eq : m.configuration.sense = m₀.configuration.sense := by
  obtain ⟨buffers, hbuffers⟩ := hm.configuration
  rw [hbuffers]
  rfl

theorem IsSound.outcomes_eq (t : Nat) : m.outcomes t = m₀.outcomes t := by
  obtain ⟨buffers, hbuffers⟩ := hm.configuration
  unfold Model.outcomes Model.markovCount
  rw [hbuffers]
  rfl

theorem IsSound.transitionRow_eq (t i : Nat) : m.transitionRow t i = m₀.transitionRow t i := by
  obtain ⟨buffers, hbuffers⟩ := hm.configuration
  unfold Model.transitionRow
  rw [hbuffers]
  rfl

theorem IsSound.weight_eq : m.weight = m₀.weight := by
  obtain ⟨buffers, hbuffers⟩ := hm.configuration
  unfold Model.weight Model.scenarioRow
  rw [hbuffers]
  rfl

end Data

/-! ## Operations on parts -/

section Parts

variable {β : Type} {post : β → Prop}

theorem onStore_sound {t i : Nat} {op : Transition (Store K) β}
    (hop : Transition.Ensures (fun s => ∀ c ∈ s.cuts, D.IsValidCut m₀ t i c) op post) :
    Transition.Ensures (D.IsSound m₀) (Model.onStore t i op) post := by
  intro m hm
  unfold Model.onStore
  rw [Transition.perform_of]
  cases hstore : m.stores.get? t i with
  | none => exact ⟨hm, by simp⟩
  | some s =>
    obtain ⟨hcuts, hpost⟩ := hop s (hm.stored t i s hstore)
    refine ⟨{ hm with stored := fun t' i' s' hs' => ?_ }, hpost⟩
    rcases Grid.get?_put hs' with ⟨rfl, rfl, rfl⟩ | hs'
    · exact hcuts
    · exact hm.stored t' i' s' hs'

theorem onProblem_sound {t i : Nat} {change : StageProblem K → Except Failure (StageProblem K)}
    (hchange : ∀ p p', (∀ c ∈ p.cuts, D.IsValidCut m₀ t i c) → change p = .ok p' →
      ∃ cuts, p' = { p with cuts := cuts } ∧ ∀ c ∈ cuts, D.IsValidCut m₀ t i c) :
    Transition.Ensures (D.IsSound m₀) (Model.onProblem t i change) fun _ => True := by
  intro m hm
  refine ⟨?_, fun _ _ => True.intro⟩
  unfold Model.onProblem
  rw [Transition.perform_of]
  cases hproblem : m.problems.get? t i with
  | none => exact hm
  | some p =>
    obtain ⟨p₀, cuts, hp₀, rfl, hcuts⟩ := hm.problems t i p hproblem
    cases hp' : change { p₀ with cuts := cuts } with
    | error e =>
      dsimp only
      rw [hp']
      exact hm
    | ok p' =>
      dsimp only
      rw [hp']
      obtain ⟨cuts', rfl, hcuts'⟩ := hchange _ _ hcuts hp'
      refine { hm with problems := fun t' i' q hq => ?_ }
      rcases Grid.get?_put hq with ⟨rfl, rfl, rfl⟩ | hq
      · exact ⟨p₀, cuts', hp₀, rfl, hcuts'⟩
      · exact hm.problems t' i' q hq

theorem onMeasure_sound {op : Transition (RiskMeasure K) β}
    (hop : Transition.Ensures (fun r => r.rule = m₀.configuration.measure.rule) op post) :
    Transition.Ensures (D.IsSound m₀) (Model.onMeasure op) post := by
  refine Transition.Ensures.focus (fun m hm => ?_) hop fun m r hm hr => ?_
  · obtain ⟨buffers, hbuffers⟩ := hm.configuration
    rw [hbuffers]
    rfl
  · obtain ⟨buffers, hbuffers⟩ := hm.configuration
    obtain ⟨rule, buffers'⟩ := r
    cases hr
    refine { hm with configuration := ⟨buffers', ?_⟩ }
    rw [hbuffers]
    rfl

end Parts

/-! ## Solutions -/

section Solutions

variable {built : Grid (StageProblem K)} (hm₀ : m₀.IsMadeOf built) (hD : D.Describes m₀)
  {m : Model K} (hm : D.IsSound m₀ m)

include hm₀ hD hm in
/-- The line of a solution bounds the stage value. -/
theorem solution_below {t i s : Nat} (hmem : (i, s) ∈ m₀.outcomes t) {p : StageProblem K}
    (hp : m.problems.get? t i = some p) {x : Point K} {sol : StageSolution K}
    (h : p.solve x (s : Nat) = .ok sol) :
    x.length = m₀.configuration.initialState.length ∧ sol.duals.length = x.length ∧
      ∀ y : Point K, y.length = m₀.configuration.initialState.length →
        m₀.configuration.sense.below
          (sol.objective + Scalar.dot sol.duals (List.zipWith (· - ·) y x))
          (D.stageValue m₀ t i s y) := by
  obtain ⟨p₀, cuts, hp₀, rfl, hcuts⟩ := hm.problems t i p hp
  obtain ⟨hsetting, hcount, -⟩ := hm₀.problem_spec hp₀
  have hx : x.length = m₀.configuration.initialState.length := by
    exact_mod_cast (StageProblem.solve_eq_ok.mp h).1.trans hcount
  have hexact := hD.solutions t i p₀ hp₀ s hmem cuts
    (fun c hc => (isValidCut_iff.mp (hcuts c hc)).1) x sol h
  refine ⟨hx, hexact.dimension, fun y hy => ?_⟩
  exact hexact.line_below hm₀ hD hmem (by rw [hsetting]) (by rw [hsetting]) (by rw [hsetting])
    hcuts hx hy

include hm₀ hD hm in
/-- The children of a stage at a state are those of the model as it was made. -/
theorem children_spec {t : Nat} {x : Point K} {children : List (Child K)}
    (h : m.children t x = .ok children) :
    List.Forall₂ (D.IsChild m₀ t x) (m₀.outcomes t) children := by
  have hchildren := Model.areChildren_iff.mp h
  unfold Model.AreChildren at hchildren
  rw [hm.outcomes_eq] at hchildren
  have hmem := (List.forall₂_and_left (m₀.outcomes t) children).mpr ⟨fun e he => he, hchildren⟩
  refine hmem.imp fun e c hc => ?_
  obtain ⟨he, hmarkov, hscenario, p, hp, hsol⟩ := hc
  obtain ⟨hx, hduals, hbelow⟩ := solution_below hm₀ hD hm he hp hsol
  exact ⟨hmarkov, hscenario, hx, hduals, hbelow⟩

end Solutions

/-! ## New cuts -/

theorem append_sound {α : Type} {P : Cut α → Prop} {c : Cut α} (hc : P c)
    (x : Option (Point α)) :
    Transition.Ensures (fun s => ∀ c ∈ s.cuts, P c) (Store.append c x) fun _ => True := by
  have haddCut : Transition.Ensures (fun s : Store α => ∀ c ∈ s.cuts, P c) (Store.addCut c)
      fun _ => True := by
    refine Transition.Ensures.get.bind fun s _ => ?_
    refine (Transition.Ensures.outcome fun _ _ => True.intro).bind fun _ _ => ?_
    refine Transition.Ensures.modify fun s hs d hd => ?_
    rcases List.mem_append.mp hd with hd | hd
    · exact hs d hd
    · rw [List.mem_singleton.mp hd]
      exact hc
  unfold Store.append
  refine haddCut.bind fun _ _ => ?_
  cases x with
  | none => exact Transition.Ensures.pure True.intro
  | some x =>
    refine Transition.Ensures.get.bind fun s _ => ?_
    refine (Transition.Ensures.outcome fun _ _ => True.intro).bind fun _ _ => ?_
    exact Transition.Ensures.modify fun s hs => hs

/-- A transition row belongs to a stage that is not the last one. -/
theorem transitionRow_spec {built : Grid (StageProblem K)} (hm₀ : m₀.IsMadeOf built)
    {m : Model K} (hm : D.IsSound m₀ m) {t i : Nat} {row : List K}
    (h : m.transitionRow t i = .ok row) :
    t + 1 < m₀.stageCount ∧ i < m₀.markovCount ∧ row = m₀.transitionWeights t i := by
  rw [hm.transitionRow_eq] at h
  have hrow : m₀.configuration.transition.get? t i = some row := Grid.entry_eq_ok.mp h
  obtain ⟨ht, hi⟩ := (Grid.get?_isSome hm₀.transition.fits).mp ⟨row, hrow⟩
  refine ⟨by omega, hi, ?_⟩
  rw [Model.transitionWeights, hrow, Option.getD_some]

section Pass

variable [IsStrictOrderedRing K] {built : Grid (StageProblem K)} (hm₀ : m₀.IsMadeOf built)
  (hs : m₀.IsStochastic) (hD : D.Describes m₀)

include hm₀ hs in
/-- What the measure of a pair builds of children is a valid cut. -/
theorem generate_sound {t i : Nat} (ht : t + 1 < m₀.stageCount) (hi : i < m₀.markovCount)
    {x : Point K} {children : List (Child K)} {duals : Tensor K}
    (hchildren : List.Forall₂ (D.IsChild m₀ (t + 1) x) (m₀.outcomes (t + 1)) children)
    (hduals : Model.stackDuals children = .ok duals) :
    Transition.Ensures (fun r => r.rule = m₀.configuration.measure.rule)
      (RiskMeasure.generate (.ok m₀.configuration.sense)
        (Model.batch x children duals (Tensor.vector (m₀.childWeights t i)))
        (some (.int t, .int i)))
      (D.IsValidCut m₀ t i) := by
  intro r hr
  cases (Model.stackDuals_eq_ok hm₀ hs ht hi hchildren).symm.trans hduals
  have hregular := Model.childBatch_isRegular hm₀ hs ht hi hchildren
  have hcoherent := hs.measures t i ht hi
  obtain ⟨c, buffers', hcut, hsupports⟩ := Rule.cut_supports_resolve hregular
    m₀.configuration.sense (some (.int t, .int i)) (by rintro e ⟨⟩; rfl) hcoherent r.buffers
  have hrun : (RiskMeasure.generate (.ok m₀.configuration.sense)
      (Model.batch x children (Tensor.ofRows x.length (children.map fun c => c.solution.duals))
        (Tensor.vector (m₀.childWeights t i))) (some (.int t, .int i))).perform r
        = (.ok c, ⟨r.rule, buffers'⟩) := by
    rw [RiskMeasure.generate, Transition.perform_of, Model.batch_eq_ok hm₀ hs ht hi hchildren, hr,
      Rule.generate_perform (Rule.isForeign_of_resolve hcoherent), hcut]
  rw [hrun]
  refine ⟨hr, fun c' hc' => ?_⟩
  cases hc'
  exact Model.isValidCut_of_supports ht hchildren hregular.state hsupports

include hm₀ hs in
/-- The cut that a pair gets is valid. -/
theorem addCutAt_sound {t : Nat} {x : Point K} {children : List (Child K)} {duals : Tensor K}
    (hchildren : List.Forall₂ (D.IsChild m₀ (t + 1) x) (m₀.outcomes (t + 1)) children)
    (hduals : Model.stackDuals children = .ok duals) (i : Nat) :
    Transition.Ensures (D.IsSound m₀) (Model.addCutAt t x children duals i) fun _ => True := by
  unfold Model.addCutAt
  refine Transition.Ensures.get.bind fun m hm => ?_
  refine (Transition.Ensures.outcome fun _ h => transitionRow_spec hm₀ hm h).bind ?_
  rintro row ⟨ht, hi, rfl⟩
  split
  · have hweights : (do Tensor.stack (← children.mapM (m.weight t (m₀.transitionWeights t i))))
        = .ok (Tensor.vector (m₀.childWeights t i)) := by
      rw [hm.weight_eq]
      exact Model.stack_weights hm₀ hs ht hi hchildren
    rw [hweights, hm.sense_eq]
    refine (Transition.Ensures.outcome fun _ h => h).bind ?_
    rintro _ ⟨⟩
    refine (onMeasure_sound (generate_sound hm₀ hs ht hi hchildren hduals)).bind fun cut hcut => ?_
    refine (onStore_sound (append_sound hcut _)).bind fun _ _ => ?_
    refine (onProblem_sound fun p p' hp hp' => ?_).bind fun _ _ => ?_
    · obtain ⟨-, rfl⟩ := StageProblem.addCut_eq_ok.mp hp'
      refine ⟨_, rfl, fun c hc => ?_⟩
      rcases List.mem_append.mp hc with hc | hc
      · exact hp c hc
      · rw [List.mem_singleton.mp hc]
        exact hcut
    · exact Transition.Ensures.pure True.intro
  · exact Transition.Ensures.pure True.intro

include hm₀ hs hD

theorem addStageCuts_sound (t : Nat) (x : Point K) :
    Transition.Ensures (D.IsSound m₀) (Model.addStageCuts t x) fun _ => True := by
  unfold Model.addStageCuts
  refine Transition.Ensures.get.bind fun m hm => ?_
  refine (Transition.Ensures.outcome fun _ h => children_spec hm₀ hD hm h).bind ?_
  intro children hchildren
  refine (Transition.Ensures.outcome fun _ h => h).bind fun duals hduals => ?_
  refine Transition.Ensures.get.bind fun _ _ => ?_
  refine (Transition.Ensures.mapM fun i _ => addCutAt_sound hm₀ hs hchildren hduals i).bind ?_
  intro _ _
  exact Transition.Ensures.pure True.intro

theorem addCutsAlong_sound (path : Trajectory K) :
    Transition.Ensures (D.IsSound m₀) (Model.addCutsAlong path) fun _ => True := by
  unfold Model.addCutsAlong
  refine (Transition.Ensures.mapM fun e _ => addStageCuts_sound hm₀ hs hD e.1 e.2).bind ?_
  exact fun _ _ => Transition.Ensures.pure True.intro

/-- Whatever path is drawn, a backward pass adds valid cuts. -/
theorem backwardPass_sound :
    Transition.Ensures (fun p : Play K => D.IsSound m₀ p.model) backwardPass fun _ => True := by
  have hsampling : Transition.Ensures (fun p : Play K => D.IsSound m₀ p.model)
      (Play.sampling Model.trajectory) fun _ => True :=
    fun p hp => ⟨hp, fun _ _ => True.intro⟩
  exact hsampling.bind fun path _ => Play.onModel_ensures (addCutsAlong_sound hm₀ hs hD path)

end Pass

end Decisions

end Multistage
