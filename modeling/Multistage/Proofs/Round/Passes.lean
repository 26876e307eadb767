/-
Multistage.Proofs.Round.Passes — single backward passes.

A pass that comes to its end has added one cut to every pair of stage and Markov state that
reaches the next stage, and nothing to the others (`Model.IsPassed`).  The store and the
problem of a pair get the same cut, so a worker that loads all cuts keeps the loaded and the
stored ones equal, before and after each of its passes (`Model.LoadsAll`).
-/
import Multistage.Proofs.Round.Growth
import Multistage.Proofs.Round.Reachable

namespace Multistage

section Passes

variable {α : Type} [Scalar α]

/-! ## One pass -/

namespace Model

/-- Whether a model has come out of another one by a pass along a path. -/
structure IsPassed (m : Model α) (path : Trajectory α) (m' : Model α) : Prop where
  /-- A pair that reaches the next stage has one more cut and one more point: the state that
  the path has left in the stage, and what the measure makes of the children at that state,
  which are solved with all that has been added. -/
  reachable : ∀ t i, t + 1 < m.stageCount → i < m.markovCount →
    m.configuration.reaches t i = true → ∃ v s p cut children, path[t]? = some v ∧
      m.stores.get? t i = some s ∧ m.problems.get? t i = some p ∧
      m'.stores.get? t i = some { s with
        cuts := s.cuts ++ [cut], points := s.points ++ [v.solution.state], votes := none } ∧
      m'.problems.get? t i = some { p with cuts := p.cuts ++ [cut] } ∧
      m'.AreChildren (t + 1) v.solution.state children ∧
      m.configuration.IsCutOf t i v.solution.state children cut
  /-- The other pairs stay as they are. -/
  others : ∀ t i,
    ¬(t + 1 < m.stageCount ∧ i < m.markovCount ∧ m.configuration.reaches t i = true) →
      m'.stores.get? t i = m.stores.get? t i ∧ m'.problems.get? t i = m.problems.get? t i
  /-- So does everything else but the scratch buffers. -/
  rest : ∃ buffers stores problems,
    m' = { m with configuration := m.configuration.withBuffers buffers, stores, problems }

end Model

/-- The pairs that gain a cut in a pass, counted. -/
theorem Configuration.length_passPlaces (c : Configuration α) :
    c.passPlaces.length
      = (Grid.pairs (c.stageCount - 1) c.markovCount).countP fun e => c.reaches e.1 e.2 := by
  rw [List.countP_eq_length_filter]
  refine List.Perm.length_eq ((List.perm_ext_iff_of_nodup c.nodup_passPlaces
    ((Grid.nodup_pairs _ _).filter _)).mpr ?_)
  rintro ⟨t, i⟩
  rw [mem_passPlaces, List.mem_filter, Grid.mem_pairs]
  dsimp only
  constructor
  · rintro ⟨ht, hi, hreaches⟩
    exact ⟨⟨by omega, hi⟩, hreaches⟩
  · rintro ⟨⟨ht, hi⟩, hreaches⟩
    exact ⟨by omega, hi, hreaches⟩

theorem backwardPass_isPassed {p p' : Play α} {n : Nat} (h : backwardPass.perform p = (.ok n, p')) :
    n = (Grid.pairs (p.model.stageCount - 1) p.model.markovCount).countP
        (fun e => p.model.configuration.reaches e.1 e.2) ∧
      ∃ path, p.model.trajectory.perform p.draws = (.ok path, p'.draws) ∧
        p.model.IsPassed path p'.model := by
  obtain ⟨path, hpath, gains, hgains, hplaces, hlen, hcuts⟩ := backwardPass_gains h
  have hnodup : (gains.map Gain.place).Nodup := by
    rw [hplaces]
    exact Configuration.nodup_passPlaces _
  refine ⟨?_, path, hpath, fun t i ht hi hreaches => ?_, fun t i hother => ?_, ?_⟩
  · rw [← hlen, ← List.length_map Gain.place, hplaces]
    exact Configuration.length_passPlaces _
  · have hmem : (t, i) ∈ gains.map Gain.place := by
      rw [hplaces]
      exact Configuration.mem_passPlaces.mpr ⟨ht, hi, hreaches⟩
    obtain ⟨g, hg, rfl, rfl, hpair⟩ := Gain.exists_ofPair_eq hnodup hmem
    obtain ⟨s, pr, hs, hp, -⟩ := hgains.takes g hg
    obtain ⟨⟨v, hv, hpoint⟩, children, hchildren, hcut⟩ := hcuts g hg
    refine ⟨v, s, pr, g.cut, children, hv, hs, hp, ?_, ?_, ?_, ?_⟩
    · rw [hgains.get?_stores, hs, hpair, ← hpoint]
      rfl
    · rw [hgains.get?_problems, hp, hpair]
      rfl
    · rw [← hpoint]
      exact Model.areChildren_iff.mp hchildren
    · rwa [← hpoint]
  · have hnil : Gain.ofPair gains t i = [] := by
      refine Gain.ofPair_eq_nil ?_
      rw [hplaces, Configuration.mem_passPlaces]
      exact hother
    rw [hgains.get?_stores, hgains.get?_problems, hnil]
    simp
  · obtain ⟨buffers, hm'⟩ := hgains.eq
    exact ⟨buffers, _, _, hm'⟩

/-! ## Workers that load all cuts -/

/-- Whether every pair has the cuts of its store loaded, in their order. -/
def Model.LoadsAll (m : Model α) : Prop :=
  ∀ t i, t < m.stageCount → i < m.markovCount → ∃ s p,
    m.stores.get? t i = some s ∧ m.problems.get? t i = some p ∧ p.cuts = s.cuts

namespace Model

variable {m m' : Model α}

omit [Scalar α] in
/-- The store and the problem of a pair gain the same cuts. -/
theorem Gains.loadsAll {gains : List (Gain α)} (h : m.Gains gains m') (hm : m.LoadsAll) :
    m'.LoadsAll := by
  intro t i ht hi
  have hsizes : m'.stageCount = m.stageCount ∧ m'.markovCount = m.markovCount := by
    obtain ⟨buffers, rfl⟩ := h.eq
    exact ⟨rfl, rfl⟩
  obtain ⟨s, p, hs, hp, hcuts⟩ := hm t i (hsizes.1 ▸ ht) (hsizes.2 ▸ hi)
  refine ⟨_, _, by rw [h.get?_stores, hs, Option.map_some],
    by rw [h.get?_problems, hp, Option.map_some], ?_⟩
  rw [Store.gaining_cuts, StageProblem.gaining, hcuts]

theorem reload_loadsAll {recount : Bool}
    (hfits : m.stores.fits m.stageCount m.markovCount = true)
    (h : (reload .all recount).perform m = (.ok ⟨⟩, m')) : m'.LoadsAll := by
  obtain ⟨hloadable, rfl⟩ := (reload_eq_ok hfits).mp h
  intro t i ht hi
  obtain ⟨s, hs⟩ := (Grid.get?_isSome hfits).mpr ⟨ht, hi⟩
  obtain ⟨p, hp, -⟩ := hloadable t i s hs
  refine ⟨s.prepared .all recount m.configuration.sense, { p with
    cuts := Selection.all.chosen (s.prepared .all recount m.configuration.sense) }, ?_, ?_, rfl⟩
  · simp [loaded, altered, hs]
  · simp [loaded, altered, hs, hp]

end Model

theorem backwardPass_loadsAll {p p' : Play α} {n : Nat} (hm : p.model.LoadsAll)
    (h : backwardPass.perform p = (.ok n, p')) : p'.model.LoadsAll := by
  obtain ⟨path, -, gains, hgains, -⟩ := backwardPass_gains h
  exact hgains.loadsAll hm

/-- All cuts stay loaded in a series of passes, whenever rebuilds are due. -/
theorem Assignment.backwardPasses_loadsAll {due : Nat → Except Failure Bool} {n k : Nat}
    {p p' : Play α} (hfits : p.model.stores.fits p.model.stageCount p.model.markovCount = true)
    (hm : p.model.LoadsAll) (h : (backwardPasses .all due n k).perform p = (.ok ⟨⟩, p')) :
    p'.model.LoadsAll := by
  refine (backwardPasses_keep (I := fun _ m =>
    m.stores.fits m.stageCount m.markovCount = true ∧ m.LoadsAll)
    (fun {j count p₁ p₂} hj hpass => ?_) (fun {j m m'} hj hload => ?_) (j := 0) ⟨hfits, hm⟩ h).2
  · exact ⟨(backwardPass_grows hpass).fits hj.1, backwardPass_loadsAll hj.2 hpass⟩
  · exact ⟨(Model.reload_grows hj.1 hload).fits hj.1, Model.reload_loadsAll hj.1 hload⟩

/-- A worker that selects all cuts has them loaded before each pass. -/
theorem Assignment.worker_loadsAll {a : Assignment α} {own : Model α} {draws : Draws α}
    {due : Nat → Except Failure Bool} {k : Nat} {p : Play α} (hown : a.ownModel = .ok own)
    (h : (backwardRun .all due k).perform ⟨own, draws⟩ = (.ok ⟨⟩, p)) : p.model.LoadsAll := by
  obtain ⟨made, -, hfits, hsame⟩ := ownModel_eq_ok.mp hown
  have hown_fits : own.stores.fits own.stageCount own.markovCount = true := by
    rw [hsame]
    exact hfits
  obtain ⟨loaded, hreload, hpasses⟩ := backwardRun_eq_ok.mp h
  have hstart := Model.reload_grows hown_fits hreload
  exact backwardPasses_loadsAll (hstart.fits hown_fits) (Model.reload_loadsAll hown_fits hreload)
    hpasses

/-- A pass that comes to its end returns the number of pairs that reach the next stage, and
adds one cut to each of them, made of the children at the state that the sampled path has
left, and nothing else.  A worker that selects all cuts has loaded what is stored, for every
pair, before each of its passes and after it. -/
theorem backwardPass_cuts_reachable :
    (∀ (p p' : Play α) (n : Nat), backwardPass.perform p = (.ok n, p') →
      n = (Grid.pairs (p.model.stageCount - 1) p.model.markovCount).countP
          (fun e => p.model.configuration.reaches e.1 e.2) ∧
        ∃ path, p.model.trajectory.perform p.draws = (.ok path, p'.draws) ∧
          p.model.IsPassed path p'.model) ∧
    ∀ (a : Assignment α) (own : Model α) (draws : Draws α) (due : Nat → Except Failure Bool)
      (k : Nat) (before : Play α), a.ownModel = .ok own →
      (Assignment.backwardRun .all due k).perform ⟨own, draws⟩ = (.ok ⟨⟩, before) →
      before.model.LoadsAll ∧ ∀ (after : Play α) (n : Nat),
        backwardPass.perform before = (.ok n, after) → after.model.LoadsAll := by
  refine ⟨fun p p' n h => backwardPass_isPassed h, fun a own draws due k before hown hrun => ?_⟩
  have hbefore := Assignment.worker_loadsAll hown hrun
  exact ⟨hbefore, fun after n hpass => backwardPass_loadsAll hbefore hpass⟩

end Passes

/-! ## A pair that leads nowhere -/

/-- Two stages with two Markov states, of which the second one of the first stage reaches
nothing. -/
def impasseModel : Model ℚ where
  configuration :=
    { Decisions.valleyModel.configuration with
      markovCount := 2
      transition := [[[1 / 2, 1 / 2], [0, 0]]]
      initial := [1, 0]
      scenarios := Grid.ofFn 2 2 fun _ _ => Tensor.vector [1 / 4, 3 / 4] }
  stateCount := 1
  problems := Grid.ofFn 2 2 Decisions.valleyProblemAt
  stores := Grid.ofFn 2 2 fun _ _ => Store.empty 1

theorem valley_ownModel (passes : Int) (seed : Value) :
    (⟨Decisions.valleyModel.configuration, Decisions.valleyModel.stores, passes, seed⟩ :
      Assignment ℚ).ownModel = .ok Decisions.valleyModel := by
  obtain ⟨built, hbuilt⟩ := Blueprint.exists_built (by rintro t ⟨⟩) Decisions.valley_model
  have hvectors : ∀ t i q, Decisions.valleyModel.configuration.scenarios.get? t i = some q →
      ∃ v, q = Tensor.vector v := by
    intro t i q hq
    exact ⟨_, Grid.ofFn_eq_some hq⟩
  have hmade := hbuilt.rebuild_eq hvectors Decisions.valleyModel.configuration.measure.buffers
  exact Assignment.ownModel_eq_ok.mpr ⟨_, hmade, rfl, rfl⟩

/-- One cut is added, and none where nothing is reached; and a worker goes through two passes
with a rebuild between them. -/
theorem backwardPass_cuts_impasse :
    (∃ path p', backwardPass.perform ⟨impasseModel, .cycle 0 []⟩ = (.ok 1, p') ∧
      impasseModel.IsPassed path p'.model ∧
      p'.model.stores.get? 0 1 = some (Store.empty 1)) ∧
    let run := Assignment.backwardRun (α := ℚ) .all (fun k => .ok (k == 1)) 1
    ∃ before after, run.perform ⟨Decisions.valleyModel, .cycle 0 []⟩ = (.ok ⟨⟩, before) ∧
      backwardPass.perform before = (.ok 1, after) ∧ before.model.LoadsAll ∧
      after.model.LoadsAll := by
  obtain ⟨hpass, hworker⟩ := @backwardPass_cuts_reachable ℚ _
  constructor
  · obtain ⟨p', hrun⟩ := Transition.exists_perform_of_toOption backwardPass
      ⟨impasseModel, .cycle 0 []⟩ (b := 1) (by decide +kernel)
    obtain ⟨-, path, -, hpassed⟩ := hpass _ _ _ hrun
    have hnowhere : ¬(0 + 1 < impasseModel.stageCount ∧ 1 < impasseModel.markovCount ∧
        impasseModel.configuration.reaches 0 1 = true) := by
      decide +kernel
    exact ⟨path, p', hrun, hpassed, (hpassed.others 0 1 hnowhere).1.trans rfl⟩
  · intro run
    obtain ⟨after, hall⟩ := Transition.exists_perform_of_toOption (run >>= fun _ => backwardPass)
      ⟨Decisions.valleyModel, .cycle 0 []⟩ (b := 1) (by decide +kernel)
    obtain ⟨_, before, hrun, hlast⟩ := Transition.perform_bind_eq_ok.mp hall
    obtain ⟨hbefore, hafter⟩ := hworker ⟨_, _, 2, .null⟩ _ _ _ 1 before
      (valley_ownModel 2 .null) hrun
    exact ⟨before, after, hrun, hlast, hbefore, hafter after 1 hlast⟩

end Multistage
