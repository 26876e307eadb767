/-
Multistage.Proofs.Round.Growth — what backward passes add to the stores of a
worker.

A worker's stores only grow: `Model.Grows` says that a model has been left as it
was, except that the stores of a list of places have got one cut and one point
for every time that they are listed.  A model that gains cuts grows
(`Gains.grows`), and the growths of a series of passes add up
(`backwardPasses_grows`).  A pass goes through all stages but the last and gives a
cut to every Markov state that reaches the next stage, so after `n` passes the delta
of such a pair holds `n` cuts and `n` points (`Assignment.backward_spec`).
-/
import Multistage.Proofs.Policy.Pass
import Multistage.Round.Worker

namespace Multistage

variable {α β : Type}

/-! ## Stores -/

/-- The items of one delta, then those of another. -/
def Delta.append (d e : Delta α) : Delta α := ⟨d.points ++ e.points, d.cuts ++ e.cuts⟩

namespace Store

/-- A store after the items of a delta have been added at its end, all of them of
its dimension. -/
structure Continues (s : Store α) (d : Delta α) (s' : Store α) : Prop where
  stateCount : s'.stateCount = s.stateCount
  cuts : s'.cuts = s.cuts ++ d.cuts
  points : s'.points = s.points ++ d.points
  dimension : d.HasDimension s.stateCount

namespace Continues

variable {s s' s'' : Store α} {d e : Delta α}

theorem refl (s : Store α) : s.Continues ⟨[], []⟩ s :=
  ⟨rfl, by simp, by simp, by simp, by simp⟩

theorem trans (h : s.Continues d s') (h' : s'.Continues e s'') : s.Continues (d.append e) s'' where
  stateCount := h'.stateCount.trans h.stateCount
  cuts := by rw [h'.cuts, h.cuts, List.append_assoc]; rfl
  points := by rw [h'.points, h.points, List.append_assoc]; rfl
  dimension := by
    have he := h'.dimension
    rw [h.stateCount] at he
    constructor
    · intro p hp
      exact (List.mem_append.mp hp).elim (h.dimension.points p) (he.points p)
    · intro c hc
      exact (List.mem_append.mp hc).elim (h.dimension.cuts c) (he.cuts c)

/-- What has been added is found by the sizes that the store had before. -/
theorem deltaSince_eq (h : s.Continues d s') :
    s'.deltaSince s.cuts.length s.points.length = d := by
  obtain ⟨points, cuts⟩ := d
  unfold deltaSince sliceFrom
  rw [h.cuts, h.points]
  simp

end Continues

end Store

/-! ## Models -/

namespace Model

/-- A model after one cut and one point have been added to the stores of a list of
places, for every time that they are listed. -/
structure Grows (m : Model α) (places : List (Nat × Nat)) (m' : Model α) : Prop where
  stages : m'.stageCount = m.stageCount
  states : m'.markovCount = m.markovCount
  transition : m'.configuration.transition = m.configuration.transition
  shape : ∀ stages states, m'.stores.fits stages states = m.stores.fits stages states
  stores : ∀ t i s, m.stores.get? t i = some s → ∃ d s', m'.stores.get? t i = some s' ∧
    s.Continues d s' ∧ d.cuts.length = places.count (t, i) ∧
      d.points.length = places.count (t, i)

namespace Grows

variable {m m' m'' : Model α} {ps qs : List (Nat × Nat)}

theorem of_stores_eq (hconfiguration : m'.configuration.transition = m.configuration.transition)
    (hstages : m'.stageCount = m.stageCount) (hstates : m'.markovCount = m.markovCount)
    (hstores : m'.stores = m.stores) : m.Grows [] m' where
  stages := hstages
  states := hstates
  transition := hconfiguration
  shape _ _ := by rw [hstores]
  stores _ _ s hs := ⟨⟨[], []⟩, s, by rw [hstores, hs], .refl s, rfl, rfl⟩

theorem refl (m : Model α) : m.Grows [] m := of_stores_eq rfl rfl rfl rfl

theorem trans (h : m.Grows ps m') (h' : m'.Grows qs m'') : m.Grows (ps ++ qs) m'' where
  stages := h'.stages.trans h.stages
  states := h'.states.trans h.states
  transition := h'.transition.trans h.transition
  shape stages states := (h'.shape stages states).trans (h.shape stages states)
  stores t i s hs := by
    obtain ⟨d, s', hs', hd, hcuts, hpoints⟩ := h.stores t i s hs
    obtain ⟨e, s'', hs'', he, hcuts', hpoints'⟩ := h'.stores t i s' hs'
    refine ⟨d.append e, s'', hs'', hd.trans he, ?_, ?_⟩
    · simp [Delta.append, hcuts, hcuts']
    · simp [Delta.append, hpoints, hpoints']

theorem fits (h : m.Grows ps m') (hfits : m.stores.fits m.stageCount m.markovCount = true) :
    m'.stores.fits m'.stageCount m'.markovCount = true := by
  rw [h.shape, h.stages, h.states, hfits]

end Grows

/-- Gains are additions at their places. -/
theorem Gains.grows {m m' : Model α} {gains : List (Gain α)} (h : m.Gains gains m') :
    m.Grows (gains.map Gain.place) m' where
  stages := by
    obtain ⟨buffers, rfl⟩ := h.eq
    rfl
  states := by
    obtain ⟨buffers, rfl⟩ := h.eq
    rfl
  transition := by
    obtain ⟨buffers, rfl⟩ := h.eq
    rfl
  shape := h.fits_stores
  stores t i s hs := by
    have hfit : ∀ g ∈ Gain.ofPair gains t i,
        (g.cut.coefficients.length : Int) = s.stateCount
          ∧ (g.point.length : Int) = s.stateCount := by
      intro g hg
      obtain ⟨hgains, hplace⟩ := List.mem_filter.mp hg
      obtain ⟨rfl, rfl⟩ := Prod.mk.inj (of_decide_eq_true hplace)
      obtain ⟨s', p, hs', -, hdims⟩ := h.takes g hgains
      rwa [Option.some.inj (hs.symm.trans hs')]
    refine ⟨⟨(Gain.ofPair gains t i).map Gain.point, (Gain.ofPair gains t i).map Gain.cut⟩, _,
      by rw [h.get?_stores, hs, Option.map_some],
      ⟨by simp, by simp, by simp, ?_, ?_⟩, ?_, ?_⟩
    · intro x hx
      obtain ⟨g, hg, rfl⟩ := List.mem_map.mp hx
      exact (hfit g hg).2
    · intro c hc
      obtain ⟨g, hg, rfl⟩ := List.mem_map.mp hc
      exact (hfit g hg).1
    · rw [List.length_map, Gain.length_ofPair]
    · rw [List.length_map, Gain.length_ofPair]

section Passes

variable [Scalar α]

theorem Grows.reaches_eq {m m' : Model α} {ps : List (Nat × Nat)} (h : m.Grows ps m') :
    m'.configuration.reaches = m.configuration.reaches := by
  funext t i
  unfold Configuration.reaches
  rw [h.transition]

theorem Grows.stagePlaces_eq {m m' : Model α} {ps : List (Nat × Nat)} (h : m.Grows ps m') :
    m'.configuration.stagePlaces = m.configuration.stagePlaces := by
  funext t
  have hstates : m'.configuration.markovCount = m.configuration.markovCount := h.states
  unfold Configuration.stagePlaces
  rw [h.reaches_eq, hstates]

theorem Grows.passPlaces_eq {m m' : Model α} {ps : List (Nat × Nat)} (h : m.Grows ps m') :
    m'.configuration.passPlaces = m.configuration.passPlaces := by
  have hstages : m'.configuration.stageCount = m.configuration.stageCount := h.stages
  unfold Configuration.passPlaces
  rw [h.stagePlaces_eq, hstages]

/-- Loading leaves the cuts and points of all stores alone. -/
theorem reload_grows {selection : Selection} {recount : Bool} {m m' : Model α}
    (hfits : m.stores.fits m.stageCount m.markovCount = true)
    (h : (reload selection recount).perform m = (.ok ⟨⟩, m')) : m.Grows [] m' := by
  obtain ⟨-, rfl⟩ := (reload_eq_ok hfits).mp h
  refine ⟨rfl, rfl, rfl, fun _ _ => Grid.fits_mapEntries .., fun t i s hs => ?_⟩
  refine ⟨⟨[], []⟩, s.prepared selection recount m.configuration.sense, ?_, ?_, rfl, rfl⟩
  · simp [loaded, altered, hs]
  · unfold Store.prepared
    split
    · exact { Store.Continues.refl s with }
    · exact .refl s

end Passes

end Model

section Passes

variable [Scalar α]

theorem backwardPass_grows {p p' : Play α} {n : Nat}
    (h : backwardPass.perform p = (.ok n, p')) :
    p.model.Grows p.model.configuration.passPlaces p'.model := by
  obtain ⟨path, -, gains, hgains, hplaces, -⟩ := backwardPass_gains h
  rw [← hplaces]
  exact hgains.grows

namespace Assignment

/-- What passes and rebuilds keep is kept by a series of passes with rebuilds between them.
It may speak of the number of passes. -/
theorem backwardPasses_keep {selection : Selection} {due : Nat → Except Failure Bool}
    {I : Nat → Model α → Prop}
    (hpass : ∀ {j count : Nat} {p p' : Play α}, I j p.model →
      backwardPass.perform p = (.ok count, p') → I (j + 1) p'.model)
    (hload : ∀ {j : Nat} {m m' : Model α}, I j m →
      (Model.reload selection true).perform m = (.ok ⟨⟩, m') → I j m') {n : Nat} :
    ∀ {j k : Nat} {p p' : Play α}, I j p.model →
      (backwardPasses selection due n k).perform p = (.ok ⟨⟩, p') → I (j + n) p'.model := by
  induction n with
  | zero =>
    intro j k p p' hj h
    cases h
    exact hj
  | succ n ih =>
    intro j k p p' hj h
    unfold backwardPasses at h
    obtain ⟨_, p₁, hone, h⟩ := Transition.perform_bind_eq_ok.mp h
    obtain ⟨count, hone⟩ := Transition.perform_discard_eq_ok.mp hone
    obtain ⟨isDue, -, h⟩ := Transition.outcome_bind_eq_ok.mp h
    have hnext : j + (n + 1) = j + 1 + n := by omega
    rw [hnext]
    cases isDue with
    | false => exact ih (hpass hj hone) h
    | true =>
      obtain ⟨_, p₂, hrebuild, h⟩ := Transition.perform_bind_eq_ok.mp h
      obtain ⟨m, hreload, rfl⟩ := Play.onModel_eq_ok.mp hrebuild
      exact ih (hload (hpass hj hone) hreload) h

/-- A series of passes gives every place of a pass as many cuts and points as there are
passes. -/
theorem backwardPasses_grows {selection : Selection} {due : Nat → Except Failure Bool} {n k : Nat}
    {p p' : Play α} (hfits : p.model.stores.fits p.model.stageCount p.model.markovCount = true)
    (h : (backwardPasses selection due n k).perform p = (.ok ⟨⟩, p')) :
    p.model.Grows (List.replicate n p.model.configuration.passPlaces).flatten p'.model := by
  have hgrown := backwardPasses_keep (I := fun j m =>
    p.model.Grows (List.replicate j p.model.configuration.passPlaces).flatten m)
    (fun {j count p₁ p₂} hj hpass => ?_) (fun {j m m'} hj hload => ?_) (j := 0) (.refl _) h
  · rwa [Nat.zero_add] at hgrown
  · have hone := backwardPass_grows hpass
    rw [hj.passPlaces_eq] at hone
    rw [List.replicate_succ', List.flatten_append, List.flatten_singleton]
    exact hj.trans hone
  · have hloaded := hj.trans (Model.reload_grows (hj.fits hfits) hload)
    rwa [List.append_nil] at hloaded

/-! ## What a worker hands back -/

theorem ownModel_eq_ok {a : Assignment α} {m : Model α} :
    a.ownModel = .ok m ↔ ∃ made, a.snapshot.rebuild = .ok made ∧
      a.stores.fits made.stageCount made.markovCount = true ∧
      m = { made with stores := a.stores } := by
  unfold ownModel
  rw [bind_eq_ok]
  refine exists_congr fun made => and_congr Iff.rfl ?_
  unfold Model.withStores
  split
  · rename_i hfits
    rw [Except.ok.injEq, eq_comm]
    exact (and_iff_right hfits).symm
  · rename_i hfits
    exact iff_of_false nofun fun h => hfits h.1

omit [Scalar α] in
theorem get?_deltas {before after : Grid (Store α)} {t i : Nat} {s s' : Store α}
    (hs : before.get? t i = some s) (hs' : after.get? t i = some s') :
    (deltas before after).get? t i = some (s'.deltaSince s.cuts.length s.points.length) := by
  obtain ⟨row, hrow, hi⟩ := Grid.get?_eq_some.mp hs
  obtain ⟨row', hrow', hi'⟩ := Grid.get?_eq_some.mp hs'
  exact Grid.get?_eq_some.mpr ⟨_, List.getElem?_zipWith_eq_some.mpr ⟨_, _, hrow, hrow', rfl⟩,
    List.getElem?_zipWith_eq_some.mpr ⟨_, _, hi, hi', rfl⟩⟩

/-- What the worker's own model has gone through. -/
theorem finalModel_eq_ok [Seeded α] {a : Assignment α} {selection : Selection}
    {due : Nat → Except Failure Bool} {final : Model α} :
    a.finalModel selection due = .ok final ↔ ∃ own draws p, a.ownModel = .ok own ∧
      Draws.ofSeed a.seed = .ok draws ∧
      (backwardRun selection due a.passes.toNat).perform ⟨own, draws⟩ = (.ok ⟨⟩, p) ∧
      p.model = final := by
  unfold finalModel
  simp only [bind_eq_ok]
  constructor
  · rintro ⟨own, hown, draws, hdraws, u, hr, hp⟩
    exact ⟨own, draws, _, hown, hdraws, Prod.ext hr rfl, pure_eq_ok.mp hp⟩
  · rintro ⟨own, draws, p, hown, hdraws, hrun, rfl⟩
    exact ⟨own, hown, draws, hdraws, ⟨⟩, by rw [hrun], by rw [hrun]; rfl⟩

/-- A run loads all pairs, and then goes through its passes. -/
theorem backwardRun_eq_ok {selection : Selection} {due : Nat → Except Failure Bool} {n : Nat}
    {p p' : Play α} :
    (backwardRun selection due n).perform p = (.ok ⟨⟩, p') ↔
      ∃ loaded, (Model.reload selection false).perform p.model = (.ok ⟨⟩, loaded) ∧
        (backwardPasses selection due n 1).perform { p with model := loaded } = (.ok ⟨⟩, p') := by
  unfold backwardRun
  rw [Transition.perform_bind_eq_ok]
  constructor
  · rintro ⟨_, _, hload, hpasses⟩
    obtain ⟨loaded, hreload, rfl⟩ := Play.onModel_eq_ok.mp hload
    exact ⟨loaded, hreload, hpasses⟩
  · rintro ⟨loaded, hreload, hpasses⟩
    exact ⟨⟨⟩, _, Play.onModel_eq_ok.mpr ⟨loaded, hreload, rfl⟩, hpasses⟩

/-- The delta of a pair is what the passes of the worker have added to the store that
it was given: as many cuts and points as there were passes, or none if no pass gives
a cut to the pair. -/
theorem backward_spec [Seeded α] {a : Assignment α} {selection : Selection}
    {due : Nat → Except Failure Bool} {g : Grid (Delta α)} (h : a.backward selection due = .ok g) :
    ∃ made final, a.snapshot.rebuild = .ok made ∧ a.finalModel selection due = .ok final ∧
      ∀ t i s, a.stores.get? t i = some s → ∃ d s', final.stores.get? t i = some s' ∧
        g.get? t i = some d ∧ s.Continues d s' ∧
        d.cuts.length = (if (t, i) ∈ made.configuration.passPlaces then a.passes.toNat else 0) ∧
        d.points.length
          = (if (t, i) ∈ made.configuration.passPlaces then a.passes.toNat else 0) := by
  obtain ⟨final, hfinal, hdeltas⟩ := bind_eq_ok.mp h
  cases pure_eq_ok.mp hdeltas
  obtain ⟨own, draws, last, hown, -, hrun, rfl⟩ := finalModel_eq_ok.mp hfinal
  obtain ⟨loaded, hreload, hpasses⟩ := backwardRun_eq_ok.mp hrun
  obtain ⟨made, hmade, hfits, hsame⟩ := ownModel_eq_ok.mp hown
  have hconfiguration : own.configuration = made.configuration := by rw [hsame]
  have hstores : own.stores = a.stores := by rw [hsame]
  have hown_fits : own.stores.fits own.stageCount own.markovCount = true := by
    rw [hsame]
    exact hfits
  have hstart := Model.reload_grows hown_fits hreload
  have hgrows := hstart.trans
    (backwardPasses_grows (hstart.fits hown_fits) hpasses)
  rw [List.nil_append, hstart.passPlaces_eq, hconfiguration] at hgrows
  have hcount : ∀ e, (List.replicate a.passes.toNat made.configuration.passPlaces).flatten.count e
      = if e ∈ made.configuration.passPlaces then a.passes.toNat else 0 := by
    intro e
    rw [List.count_flatten, List.map_replicate, List.sum_replicate_nat,
      made.configuration.nodup_passPlaces.count]
    split <;> simp
  refine ⟨made, last.model, hmade, hfinal, fun t i s hs => ?_⟩
  obtain ⟨d, s', hs', hd, hcuts, hpoints⟩ := hgrows.stores t i s (hstores ▸ hs)
  refine ⟨d, s', hs', ?_, hd, hcuts.trans (hcount _), hpoints.trans (hcount _)⟩
  rw [get?_deltas hs hs', hd.deltaSince_eq]

end Assignment

end Passes

end Multistage
