/-
Multistage.Proofs.Round.Dimension — models with one state dimension.

If the stores and the problems of a model share one state dimension, then nothing
in a backward round can fail between the results of the workers and the first
stage: whatever workers hand back for the stores of the model can be merged into
them (`backward_isMergeable`), and the problems can be loaded with the cuts that
any selection picks (`absorb_perform`).  Models that have been made are of this kind
(`Blueprint.model_hasDimension`) and remain so (`Coordinator.step_hasDimension`).
-/
import Multistage.Proofs.Policy.FirstStage
import Multistage.Proofs.Round.Calls
import Multistage.Proofs.Round.Growth
import Multistage.Proofs.Round.Soundness

namespace Multistage

variable {α : Type}

/-! ## Stores and models -/

/-- Whether a store and all its items have a dimension. -/
structure Store.HasDimension (s : Store α) (n : Int) : Prop where
  stateCount : s.stateCount = n
  cuts : ∀ c ∈ s.cuts, (c.coefficients.length : Int) = n
  points : ∀ p ∈ s.points, (p.length : Int) = n

/-- Whether there is a store and a problem for every pair, and no others. -/
structure Model.HasPairs (m : Model α) : Prop where
  stores : m.stores.fits m.stageCount m.markovCount = true
  problems : m.problems.fits m.stageCount m.markovCount = true

/-- Whether the stores and problems of a model share a dimension. -/
structure Model.HasDimension (m : Model α) (n : Int) : Prop extends m.HasPairs where
  store : ∀ t i s, m.stores.get? t i = some s → s.HasDimension n
  problem : ∀ t i p, m.problems.get? t i = some p → p.stateCount = n

section Merge

variable [Scalar α]

theorem Store.mem_of_newPoints {s : Store α} {deltas : List (Delta α)} {p : Point α}
    (h : p ∈ s.newPoints deltas) : ∃ d ∈ deltas, p ∈ d.points := by
  unfold newPoints sortByKey at h
  rcases mem_of_newItems (List.mem_mergeSort.mp h) with h | h
  · exact absurd h List.not_mem_nil
  · exact List.mem_flatMap.mp h

theorem Store.HasDimension.joined {s : Store α} {n : Int} (h : s.HasDimension n) {sense : Sense}
    {deltas : List (Delta α)} (hdeltas : ∀ d ∈ deltas, d.HasDimension n) :
    (s.joined sense deltas).HasDimension n where
  stateCount := h.stateCount
  cuts := by
    intro c hc
    rcases List.mem_append.mp hc with hc | hc
    · exact h.cuts c hc
    · obtain ⟨d, hd, hc⟩ := mem_of_newCuts hc
      exact (hdeltas d hd).cuts c hc
  points := by
    intro p hp
    rcases List.mem_append.mp hp with hp | hp
    · exact h.points p hp
    · obtain ⟨d, hd, hp⟩ := mem_of_newPoints hp
      exact (hdeltas d hd).points p hp

namespace Model.HasDimension

variable {m : Model α} {n : Int}

theorem merged (h : m.HasDimension n) {grids : List (Grid (Delta α))} (hm : m.IsMergeable grids) :
    (m.merged grids).HasDimension n where
  stores := (Grid.fits_mapEntries ..).trans h.stores
  problems := h.problems
  store := by
    intro t i s' hs'
    simp only [Model.merged, Grid.get?_mapEntries, Option.map_eq_some_iff] at hs'
    obtain ⟨s, hs, rfl⟩ := hs'
    refine (h.store t i s hs).joined fun d hd => ?_
    rw [← (h.store t i s hs).stateCount]
    exact (hm t i s hs).2 d hd
  problem := h.problem

theorem loaded (h : m.HasDimension n) (selection : Selection) (recount : Bool) :
    (m.loaded selection recount).HasDimension n where
  stores := (Grid.fits_mapEntries ..).trans h.stores
  problems := (Grid.fits_mapEntries ..).trans h.problems
  store := by
    intro t i s' hs'
    simp only [Model.loaded, altered, Grid.get?_mapEntries, Option.map_eq_some_iff] at hs'
    obtain ⟨s, hs, rfl⟩ := hs'
    unfold Store.prepared
    split
    · exact { h.store t i s hs with }
    · exact h.store t i s hs
  problem := by
    intro t i p' hp'
    simp only [Model.loaded, altered, Grid.get?_mapEntries, Option.map_eq_some_iff] at hp'
    obtain ⟨p, hp, rfl⟩ := hp'
    cases m.stores.get? t i with
    | none => exact h.problem t i p hp
    | some s => exact h.problem t i p hp

end Model.HasDimension

/-! ## Rounds -/

/-- Whatever workers hand back for the stores of a model can be merged into them. -/
theorem Assignment.backward_isMergeable [Seeded α] {m : Model α} {selection : Selection}
    {due : Nat → Except Failure Bool} {grids : List (Grid (Delta α))}
    (h : ∀ g ∈ grids, ∃ a : Assignment α, a.stores = m.stores ∧ a.backward selection due = .ok g) :
    m.IsMergeable grids := by
  intro t i s hs
  have hentry : ∀ g ∈ grids, ∃ d, g.get? t i = some d ∧ d.HasDimension s.stateCount := by
    intro g hg
    obtain ⟨a, ha, hback⟩ := h g hg
    obtain ⟨_, _, -, -, hspec⟩ := backward_spec hback
    obtain ⟨d, _, -, hd, hcontinues, -⟩ := hspec t i s (ha ▸ hs)
    exact ⟨d, hd, hcontinues.dimension⟩
  constructor
  · intro g hg
    obtain ⟨d, hd, -⟩ := hentry g hg
    exact ⟨d, hd⟩
  · intro d hd
    obtain ⟨g, hg, hget⟩ := List.mem_filterMap.mp hd
    obtain ⟨d', hd', hdim⟩ := hentry g hg
    rw [hd'] at hget
    cases hget
    exact hdim

namespace Model

variable {m : Model α} {n : Int} {grids : List (Grid (Delta α))}

/-- After merging, the problems can be loaded with the cuts that a selection picks. -/
theorem reload_merged (h : m.HasDimension n) (hm : m.IsMergeable grids) (selection : Selection) :
    (reload selection false).perform (m.merged grids)
      = (.ok ⟨⟩, (m.merged grids).loaded selection false) := by
  have hmerged := h.merged hm
  refine (reload_eq_ok hmerged.stores).mpr ⟨fun t i s' hs' => ?_, rfl⟩
  have hplace : t < (m.merged grids).stageCount ∧ i < (m.merged grids).markovCount :=
    (Grid.get?_isSome hmerged.stores).mp ⟨s', hs'⟩
  obtain ⟨p, hp⟩ := (Grid.get?_isSome hmerged.problems).mpr hplace
  have hdim := hmerged.store t i s' hs'
  simp only [Model.merged, Grid.get?_mapEntries, Option.map_eq_some_iff] at hs'
  obtain ⟨s, -, rfl⟩ := hs'
  obtain ⟨cuts, hcuts⟩ := Store.select_recount selection m.configuration.sense
    { s with
      points := s.points ++ s.newPoints (Grid.deltasAt grids t i)
      cuts := s.cuts ++ s.newCuts (Grid.deltasAt grids t i) }
  refine ⟨p, hp, cuts, hcuts, fun c hc => ?_⟩
  rw [hmerged.problem t i p hp]
  exact hdim.cuts c (Selection.mem_of_select hcuts c hc)

/-- What workers have handed back is always merged and loaded; what comes after it
starts from the rebuilt model. -/
theorem absorb_perform (h : m.HasDimension n) (hm : m.IsMergeable grids) (selection : Selection) :
    (absorb selection grids).perform m
      = updateBound.perform ((m.merged grids).loaded selection false) := by
  unfold absorb rebound
  rw [Transition.perform_bind_ok ((mergeAll_eq_ok h.stores).mpr ⟨hm, rfl⟩),
    Transition.perform_bind_ok (reload_merged h hm selection)]

/-- A problem is loaded with what the selection picks of the store of its pair. -/
theorem loaded_spec {selection : Selection} {recount : Bool}
    (hloadable : ∀ t i s, m.stores.get? t i = some s → ∃ p, m.problems.get? t i = some p ∧
      IsLoadable selection (s.prepared selection recount m.configuration.sense) p)
    {t i : Nat} {s : Store α} (hs : m.stores.get? t i = some s) :
    ∃ p, (m.loaded selection recount).problems.get? t i = some p ∧
      (m.loaded selection recount).stores.get? t i
        = some (s.prepared selection recount m.configuration.sense) ∧
      selection.select (s.prepared selection recount m.configuration.sense) = .ok p.cuts := by
  obtain ⟨p, hp, cuts, hcuts, -⟩ := hloadable t i s hs
  refine ⟨{ p with cuts }, ?_, ?_, hcuts⟩
  · simp [loaded, altered, hs, hp, Selection.chosen_of_select hcuts]
  · simp [loaded, altered, hs]

/-- A model whose problems have been loaded anew has the bound of its first stage. -/
theorem rebound_spec {m' : Model α} {selection : Selection} {recount : Bool}
    (hfits : m.stores.fits m.stageCount m.markovCount = true)
    (h : (rebound selection recount).perform m = (.ok ⟨⟩, m')) :
    (∀ t i s, m.stores.get? t i = some s → ∃ p, m.problems.get? t i = some p ∧
      IsLoadable selection (s.prepared selection recount m.configuration.sense) p) ∧
    ∃ solutions, (m.loaded selection recount).firstStageSolutions = .ok solutions ∧
      m' = { m.loaded selection recount with
        firstStage := solutions
        figures := m.figures.withBound (m.boundWith solutions) } := by
  obtain ⟨_, m₁, hload, h⟩ := Transition.perform_bind_eq_ok.mp h
  obtain ⟨hloadable, rfl⟩ := (reload_eq_ok hfits).mp hload
  exact ⟨hloadable, updateBound_eq_ok h⟩

/-- A model that has absorbed the results of workers has been merged and loaded. -/
theorem absorb_eq_ok {m' : Model α} {selection : Selection}
    (hfits : m.stores.fits m.stageCount m.markovCount = true) :
    (absorb selection grids).perform m = (.ok ⟨⟩, m') ↔
      m.IsMergeable grids ∧
        (rebound selection false).perform (m.merged grids) = (.ok ⟨⟩, m') := by
  unfold absorb
  rw [Transition.perform_bind_eq_ok]
  constructor
  · rintro ⟨_, m₁, hmerge, h⟩
    obtain ⟨hmergeable, rfl⟩ := (mergeAll_eq_ok hfits).mp hmerge
    exact ⟨hmergeable, h⟩
  · rintro ⟨hmergeable, h⟩
    exact ⟨_, _, (mergeAll_eq_ok hfits).mpr ⟨hmergeable, rfl⟩, h⟩

/-- Whatever comes of solving the first stage, what has been merged and loaded stays. -/
theorem absorb_model (h : m.HasDimension n) (hm : m.IsMergeable grids) (selection : Selection) :
    ∃ firstStage figures, ((absorb selection grids).perform m).2
      = { (m.merged grids).loaded selection false with firstStage, figures } := by
  rw [absorb_perform h hm]
  exact updateBound_model _

end Model

end Merge

/-! ## Coordinators -/

namespace Coordinator

variable [Statistical α] [Seeded α]

/-- The results of a backward round of a coordinator can be merged into its stores. -/
theorem results_isMergeable {c : Coordinator α} {n : Value} {selection : Selection}
    {due : Nat → Except Failure Bool} {schedule : Schedule} {grids : List (Grid (Delta α))}
    (h : c.results n (fun a => a.backward selection due) schedule = .ok grids) :
    c.model.IsMergeable grids := by
  obtain ⟨passes, seeds, -, -, hresults⟩ := results_spec h
  have hreturned : ∀ g ∈ grids, ∃ a : Assignment α, a.stores = c.model.stores ∧
      a.backward selection due = .ok g := by
    intro g hg
    obtain ⟨k, hk, rfl⟩ := List.getElem_of_mem hg
    have hback := hresults.get (hresults.length_eq ▸ hk) hk
    exact ⟨_, rfl, hback⟩
  exact Assignment.backward_isMergeable hreturned

/-- The model keeps its dimension. -/
theorem step_hasDimension {c : Coordinator α} (hidle : c.phase = .idle) {dimension : Int}
    (hdim : c.model.HasDimension dimension) (turn : Turn α) :
    (c.step turn).after.model.HasDimension dimension := by
  obtain ⟨snapshot, model, hafter, -, hmodel⟩ := step_cases hidle turn
  rw [hafter]
  rcases hmodel with rfl | ⟨samples, rfl⟩ | ⟨n, selection, due, grids, -, hresults, rfl⟩
  · exact hdim
  · exact { hdim with }
  · have hmergeable : c.model.IsMergeable grids :=
      results_isMergeable (c := (c.step turn).before) hresults
    obtain ⟨firstStage, figures, habsorb⟩ := Model.absorb_model hdim hmergeable selection
    rw [habsorb]
    exact { (hdim.merged hmergeable).loaded selection false with }

end Coordinator

/-- A model that has been made shares the dimension of its problems. -/
theorem Blueprint.model_hasDimension [Scalar α] {b : Blueprint α} {m : Model α}
    (h : b.model = .ok m) : m.HasDimension m.stateCount := by
  obtain ⟨_, _, built, hm⟩ := model_spec h
  refine ⟨⟨?_, ?_⟩, fun t i s hs => ?_, fun t i p hp => ?_⟩
  · rw [hm.stores]
    exact Grid.fits_ofFn ..
  · rw [hm.problems]
    exact Grid.fits_zipWith (Grid.ofFnM_eq_ok.mp hm.build).1 (Grid.ofFnM_eq_ok.mp hm.scenarios).1
  · rw [hm.stores] at hs
    rw [Grid.ofFn_eq_some hs]
    exact ⟨rfl, by simp [Store.empty], by simp [Store.empty]⟩
  · rw [hm.problems, get?_withScenarios] at hp
    obtain ⟨p₀, q, hp₀, -, rfl⟩ := hp
    have hstate : p₀.stateCount = m.stateCount := commonStateCount_spec hm.stateCount hp₀
    exact hstate

end Multistage
