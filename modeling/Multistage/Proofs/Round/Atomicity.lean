/-
Multistage.Proofs.Round.Atomicity — what a call leaves behind, also when it fails.

A call can fail at many points: workers fail or are late, and after them the first
stage may have no solution.  It leaves one of few states behind all the same.
Unless all workers return results, the model is as it was.  With their results, a
backward round merges all pairs and loads all problems, which cannot fail, and only
then solves the first stage; the bound and the solutions of the first stage change
last, and together.  Forward rounds change no more than the confidence interval, and
simulations change nothing (`Coordinator.steps_atomic`).
-/
import Multistage.Proofs.Round.Dimension
import Multistage.Proofs.Round.Reachable

namespace Multistage

variable {α : Type}

/-! ## What calls leave behind -/

/-- A model after deltas have been merged into the stores of all pairs and all
problems have been loaded from the stores; all else is as it was. -/
structure Model.IsRebuilt [Scalar α] (selection : Selection) (grids : List (Grid (Delta α)))
    (m m' : Model α) : Prop where
  configuration : m'.configuration = m.configuration
  stateCount : m'.stateCount = m.stateCount
  figures : m'.figures = m.figures
  firstStage : m'.firstStage = m.firstStage
  stores : ∀ t i s, m.stores.get? t i = some s →
    m'.stores.get? t i = some (s.joined m.configuration.sense (Grid.deltasAt grids t i))
  problems : ∀ t i p, m.problems.get? t i = some p → ∃ s cuts, m'.stores.get? t i = some s ∧
    selection.select s = .ok cuts ∧ m'.problems.get? t i = some { p with cuts }

namespace Step

/-- A backward round leaves the model as it was, or all pairs are merged and loaded;
then it is the first stage that decides between success and failure.  A failure leaves
the figures alone.  It leaves the solutions of the first stage alone as well, and a
solved first stage means success, where the first stage has a vector of numbers for its
scenario probabilities; probabilities of another shape fail in the bound, after the
solutions have been kept. -/
structure IsAtomicBackward [Statistical α] [Seeded α] (s : Step α) (n : Value)
    (selection : Selection) (due : Nat → Except Failure Bool) : Prop where
  unmerged : ∀ e,
    s.before.results n (fun a => a.backward selection due) s.turn.schedule = .error e →
    s.outcome = .error e ∧ s.after.model = s.before.model
  merged : ∀ grids,
    s.before.results n (fun a => a.backward selection due) s.turn.schedule = .ok grids →
    ((Model.mergeAll grids).perform s.before.model).1 = .ok ⟨⟩ ∧
    ∃ m, s.before.model.IsRebuilt selection grids m ∧
      (∀ e, m.firstStageSolutions = .error e → s.outcome = .error e ∧ s.after.model = m) ∧
      ∀ solutions, m.firstStageSolutions = .ok solutions →
        (∀ q ∈ m.firstRows, ∃ v, q = Tensor.vector v) →
        s.outcome = .ok .updated ∧ s.after.model = { m with
          firstStage := solutions
          figures := m.figures.withBound (m.boundWith solutions) }
  failed : ∀ e, s.outcome = .error e → s.after.model.figures = s.before.model.figures ∧
    ((∀ q ∈ s.before.model.firstRows, ∃ v, q = Tensor.vector v) →
      s.after.model.firstStage = s.before.model.firstStage)

/-- A forward round leaves the model as it was, or it has samples, and nothing but
the confidence interval has changed. -/
structure IsAtomicForward [Statistical α] [Seeded α] (s : Step α) (n : Value)
    (judge : Model α → Except Failure Bool) : Prop where
  failed : ∀ e, s.before.results n Assignment.forward s.turn.schedule = .error e →
    s.outcome = .error e ∧ s.after.model = s.before.model
  sampled : ∀ samples, s.before.results n Assignment.forward s.turn.schedule = .ok samples →
    (∃ interval, s.after.model = { s.before.model with
      figures := s.before.model.figures.withInterval interval }) ∧
    ∀ good, judge s.after.model = .ok good → s.outcome = .ok (.judged good samples.flatten.length)

/-- What every call leaves behind of a coordinator whose model has a dimension. -/
structure IsAtomic [Statistical α] [Seeded α] (dimension : Int) (s : Step α) : Prop where
  idle : s.after.phase = .idle
  rounds : s.after.rounds = s.before.rounds
    + if s.before.dispatches s.turn.call.passes then 1 else 0
  dimension : s.after.model.HasDimension dimension
  backward : ∀ n selection due, s.turn.call = .backward n selection due →
    s.IsAtomicBackward n selection due
  forward : ∀ n judge, s.turn.call = .forward n judge → s.IsAtomicForward n judge
  simulate : ∀ n requested, s.turn.call = .simulate n requested → s.after.model = s.before.model

end Step

namespace Model

variable [Scalar α] {m : Model α} {n : Int} {grids : List (Grid (Delta α))}

theorem loaded_isRebuilt (h : m.HasDimension n) (hm : m.IsMergeable grids) (selection : Selection) :
    m.IsRebuilt selection grids ((m.merged grids).loaded selection false) where
  configuration := rfl
  stateCount := rfl
  figures := rfl
  firstStage := rfl
  stores := by
    intro t i s hs
    simp [loaded, altered, merged, hs]
  problems := by
    intro t i p hp
    obtain ⟨s, hs⟩ := (Grid.get?_isSome h.stores).mpr
      ((Grid.get?_isSome h.problems).mp ⟨p, hp⟩)
    have hmerged : (m.merged grids).stores.get? t i
        = some (s.joined m.configuration.sense (Grid.deltasAt grids t i)) := by
      simp [merged, hs]
    obtain ⟨hloadable, -⟩ := (reload_eq_ok (h.merged hm).stores).mp (reload_merged h hm selection)
    obtain ⟨_, _, cuts, hcuts, -⟩ := hloadable t i _ hmerged
    rw [Store.prepared_false] at hcuts
    refine ⟨_, cuts, ?_, hcuts, ?_⟩
    · simp [loaded, altered, hmerged]
    · have hp' : (m.merged grids).problems.get? t i = some p := hp
      simp only [loaded, altered, Grid.get?_mapEntries, hmerged, hp', Option.map_some,
        Option.getD_some, Store.prepared_false]
      rw [Selection.chosen_of_select hcuts]

end Model

/-! ## Steps -/

namespace Coordinator

variable [Statistical α] [Seeded α]

theorem step_backward_atomic {dimension : Int} {c : Coordinator α} (hidle : c.phase = .idle)
    (hdim : c.model.HasDimension dimension) {turn : Turn α} {n : Value} {selection : Selection}
    {due : Nat → Except Failure Bool} (hcall : turn.call = .backward n selection due) :
    (c.step turn).IsAtomicBackward n selection due := by
  have hstep := step_backward hidle hcall
  cases hresults : (c.step turn).before.results n (fun a => a.backward selection due)
    turn.schedule with
  | error e =>
    rw [hresults] at hstep
    obtain ⟨houtcome, hafter⟩ := Prod.mk.inj hstep
    have hmodel : (c.step turn).after.model = c.model := by rw [hafter]; rfl
    refine ⟨?_, ?_, ?_⟩
    · intro e' he'
      cases hresults.symm.trans he'
      exact ⟨houtcome, hmodel⟩
    · intro grids hgrids
      cases hresults.symm.trans hgrids
    · intro _ _
      rw [hmodel]
      exact ⟨rfl, fun _ => rfl⟩
  | ok grids =>
    rw [hresults] at hstep
    have hmergeable : c.model.IsMergeable grids :=
      results_isMergeable (c := (c.step turn).before) hresults
    obtain ⟨m, hm⟩ : ∃ m, m = (c.model.merged grids).loaded selection false := ⟨_, rfl⟩
    have hrebuilt : c.model.IsRebuilt selection grids m :=
      hm ▸ Model.loaded_isRebuilt hdim hmergeable selection
    have habsorb := Model.absorb_perform hdim hmergeable selection
    rw [← hm] at habsorb
    have hmerge : ((Model.mergeAll grids).perform c.model).1 = .ok ⟨⟩ := by
      rw [(Model.mergeAll_eq_ok hdim.stores).mpr ⟨hmergeable, rfl⟩]
    obtain ⟨houtcome, hafter⟩ := Prod.mk.inj hstep
    have hmodel := congrArg Coordinator.model hafter
    dsimp only at houtcome hmodel
    rw [habsorb] at houtcome hmodel
    refine ⟨fun e he => ?_, fun grids' hgrids => ?_, fun e he => ?_⟩
    · cases hresults.symm.trans he
    · cases hresults.symm.trans hgrids
      refine ⟨hmerge, m, hrebuilt, fun e he => ?_, fun solutions hsolutions hvectors => ?_⟩
      · rw [houtcome, hmodel, Model.updateBound_error he]
        exact ⟨rfl, rfl⟩
      · rw [houtcome, hmodel, Model.updateBound_vectors hsolutions hvectors]
        exact ⟨rfl, rfl⟩
    · rw [hmodel]
      rw [houtcome] at he
      cases hrun : (Model.updateBound.perform m).1 with
      | error e' =>
        refine ⟨(Model.updateBound_figures hrun).trans hrebuilt.figures, fun hvectors => ?_⟩
        have hrows : m.firstRows = c.model.firstRows := by
          unfold Model.firstRows
          rw [hrebuilt.configuration]
        rw [Model.updateBound_failed (hrows ▸ hvectors) hrun]
        exact hrebuilt.firstStage
      | ok u =>
        rw [hrun] at he
        cases he

theorem step_forward_atomic {c : Coordinator α} (hidle : c.phase = .idle) {turn : Turn α}
    {n : Value} {judge : Model α → Except Failure Bool} (hcall : turn.call = .forward n judge) :
    (c.step turn).IsAtomicForward n judge := by
  have hstep := step_forward hidle hcall
  cases hresults : (c.step turn).before.results n Assignment.forward turn.schedule with
  | error e =>
    rw [hresults] at hstep
    obtain ⟨houtcome, hafter⟩ := Prod.mk.inj hstep
    have hmodel : (c.step turn).after.model = c.model := by rw [hafter]; rfl
    refine ⟨fun e' he' => ?_, fun samples hsamples => ?_⟩
    · cases hresults.symm.trans he'
      exact ⟨houtcome, hmodel⟩
    · cases hresults.symm.trans hsamples
  | ok samples =>
    rw [hresults] at hstep
    obtain ⟨houtcome, hafter⟩ := Prod.mk.inj hstep
    have hmodel : (c.step turn).after.model = c.model.withSamples samples.flatten := by
      rw [hafter]
    refine ⟨fun e he => ?_, fun samples' hsamples => ?_⟩
    · cases hresults.symm.trans he
    · cases hresults.symm.trans hsamples
      refine ⟨⟨_, hmodel⟩, fun good hgood => ?_⟩
      rw [hmodel] at hgood
      rw [houtcome, hgood]
      rfl

theorem step_atomic {dimension : Int} {c : Coordinator α} (hidle : c.phase = .idle)
    (hdim : c.model.HasDimension dimension) (turn : Turn α) :
    (c.step turn).IsAtomic dimension := by
  obtain ⟨hphase, hrounds⟩ := step_counted hidle turn
  refine ⟨hphase, hrounds, step_hasDimension hidle hdim turn, fun n selection due hcall => ?_,
    fun n judge hcall => ?_, fun n requested hcall => ?_⟩
  · exact step_backward_atomic hidle hdim hcall
  · exact step_forward_atomic hidle hcall
  · have hturn : turn.call = .simulate n requested := hcall
    have hafter : (c.step turn).after = _ := congrArg Prod.snd (step_simulate hidle hturn)
    rw [hafter]
    rfl

/-- Whatever fails in a sequence of calls, each of them leaves the coordinator idle
and its model in one of the states of `Step.IsAtomic`. -/
theorem steps_atomic {dimension : Int} {c : Coordinator α} (hidle : c.phase = .idle)
    (hdim : c.model.HasDimension dimension) (turns : List (Turn α)) :
    ∀ s ∈ steps turns c, s.IsAtomic dimension := by
  refine forall_steps (I := fun c => c.phase = .idle ∧ c.model.HasDimension dimension)
    (fun c turn hc => ?_) ⟨hidle, hdim⟩
  have hstep := step_atomic hc.1 hc.2 turn
  exact ⟨hstep, hstep.idle, hstep.dimension⟩

/-- Two workers, of whom the second is late in the first round; the other rounds
succeed. -/
theorem steps_atomic_valley :
    let _ : Quantiles ℚ := ⟨id, fun level _ => level⟩
    let _ : Seeded ℚ := ⟨fun _ => .cycle 0 []⟩
    let backward := Call.backward (.int 2) .levelOne fun _ => .ok true
    let turns : List (Turn ℚ) := [⟨backward, ⟨.thread, 2⟩, [.completes 0, .timer]⟩,
      ⟨backward, ⟨.thread, 2⟩, [.completes 1, .completes 0]⟩,
      ⟨.forward (.int 1) fun _ => .ok true, ⟨.serial, 1⟩, [.completes 0]⟩]
    let c := Coordinator.start Decisions.valleyModel ⟨.serial, 1⟩ (.int 7)
    (steps turns c).map (fun s => (s.outcome.isOk, s.after.rounds))
        = [(false, 1), (true, 2), (true, 3)] ∧
      c.phase = .idle ∧ c.model.HasDimension 1 ∧ ∀ s ∈ steps turns c, s.IsAtomic 1 := by
  intro _ _ backward turns c
  have hdim : c.model.HasDimension 1 := by
    refine ⟨⟨rfl, rfl⟩, fun t i s hs => ?_, fun t i p hp => ?_⟩
    · rw [Grid.ofFn_eq_some hs]
      exact ⟨rfl, by simp [Store.empty], by simp [Store.empty]⟩
    · rw [Grid.ofFn_eq_some hp]
      rfl
  exact ⟨by decide +kernel, rfl, hdim, steps_atomic rfl hdim turns⟩

end Coordinator

end Multistage
