/-
Multistage.Proofs.Round.Monotone — more cuts make a better bound.

Exact solutions of the first stage are optima of problems in which cuts limit the
value to come, so with more cuts they can only be worse, and so is their
expectation, the bound (`bound_below`).  Calls change a model in few ways, and what does not
mind these ways holds along any sequence of calls (`Model.Lasts`): the stores keep
their cuts and the problems keep all but their cuts (`Model.Develops`).  A backward
round that loads all cuts therefore sets a bound that no earlier round has
surpassed, whatever cuts that round has loaded (`Coordinator.bounds_below`).
-/
import Mathlib.Algebra.Order.BigOperators.Group.List
import Multistage.Proofs.Round.Dimension
import Multistage.Proofs.Round.Reachable

namespace Multistage

theorem forall₂_zipWith {α β γ : Type} {R : α → α → Prop} {S : γ → γ → Prop} {f : β → α → γ}
    {qs : List β} (hf : ∀ q ∈ qs, ∀ a b, R a b → S (f q a) (f q b)) {as bs : List α}
    (h : List.Forall₂ R as bs) : List.Forall₂ S (List.zipWith f qs as) (List.zipWith f qs bs) := by
  induction h generalizing qs with
  | nil => simp
  | cons hab _ ih =>
    cases qs with
    | nil => simp
    | cons q qs => exact .cons (hf q (by simp) _ _ hab) (ih fun q' hq' => hf q' (by simp [hq']))

/-! ## Exact first stages -/

section FirstStage

variable {K : Type} [Field K] [LinearOrder K]

/-- Decisions describe the first stage of a model: whatever cuts its problems are
loaded with, solutions at the initial state are optima of the problems. -/
structure Decisions.SolvesFirstStage (D : Decisions K) (m : Model K) : Prop where
  sense : ∀ i p, m.problems.get? 0 i = some p → p.setting.sense = m.configuration.sense
  optimum : ∀ i p, m.problems.get? 0 i = some p → ∀ s < p.scenarioCount,
    ∀ (cuts : List (Cut K)) (sol : StageSolution K),
      { p with cuts := cuts }.solve m.configuration.initialState (s : Nat) = .ok sol →
      m.configuration.sense.IsBest
        (D.approximations { p with cuts := cuts } 0 i s m.configuration.initialState) sol.objective

/-- The probabilities that weigh the solutions of the first stage are not negative. -/
structure Model.HasWeights (m : Model K) : Prop where
  initial : ∀ p ∈ m.configuration.initial, 0 ≤ p
  rows : ∀ q ∈ m.firstRows, ∀ a ∈ q.entries, 0 ≤ a

/-- A model with the configuration of another one, whose problems of the first stage
have been loaded with further cuts. -/
structure Model.IsTightened (m m' : Model K) : Prop where
  configuration : m'.configuration = m.configuration
  problems : ∀ i p', m'.problems.get? 0 i = some p' → ∃ p, m.problems.get? 0 i = some p ∧
    p' = { p with cuts := p'.cuts } ∧ p.cuts ⊆ p'.cuts

variable {D : Decisions K}

/-- With more cuts, fewer values to come are allowed. -/
theorem approximations_subset {p : StageProblem K} {cuts : List (Cut K)} (h : p.cuts ⊆ cuts)
    (t i s : Nat) (x : Point K) :
    D.approximations { p with cuts := cuts } t i s x ⊆ D.approximations p t i s x := by
  rintro v ⟨o, ho, theta, htheta, rfl⟩
  refine ⟨o, ho, theta, ?_, rfl⟩
  unfold Decisions.Admits at htheta ⊢
  split at htheta
  · rename_i hfinal
    rw [if_pos hfinal]
    exact htheta
  · rename_i hfinal
    rw [if_neg hfinal]
    exact ⟨htheta.1, fun c hc => htheta.2 c (h hc)⟩

theorem firstStageSolutions_below {m m' : Model K} (hD : D.SolvesFirstStage m)
    (h : m.IsTightened m') {solutions solutions' : List (List (StageSolution K))}
    (hsolutions : m.firstStageSolutions = .ok solutions)
    (hsolutions' : m'.firstStageSolutions = .ok solutions') :
    List.Forall₂ (List.Forall₂ fun sol sol' : StageSolution K =>
      m.configuration.sense.below sol.objective sol'.objective) solutions solutions' := by
  have hstates : m'.markovCount = m.markovCount :=
    congrArg Configuration.markovCount h.configuration
  unfold Model.firstStageSolutions at hsolutions hsolutions'
  rw [hstates, h.configuration] at hsolutions'
  refine mapM_forall₂ hsolutions hsolutions' fun i _ row row' hrow hrow' => ?_
  obtain ⟨p, hp, hrow⟩ := bind_eq_ok.mp hrow
  obtain ⟨p', hp', hrow'⟩ := bind_eq_ok.mp hrow'
  rw [Grid.entry_eq_ok] at hp hp'
  obtain ⟨q, hq, hsame, hcuts⟩ := h.problems i p' hp'
  cases hp.symm.trans hq
  have hcount : p'.scenarioCount = p.scenarioCount := by rw [hsame]; rfl
  rw [hcount] at hrow'
  refine mapM_forall₂ hrow hrow' fun s hs sol sol' hsol hsol' => ?_
  rw [hsame] at hsol'
  have hbest := hD.optimum i p hp s (List.mem_range.mp hs) p.cuts sol hsol
  have hbest' := hD.optimum i p hp s (List.mem_range.mp hs) p'.cuts sol' hsol'
  exact hbest.2 _ (approximations_subset hcuts 0 i s _ hbest'.1)

variable [IsStrictOrderedRing K]

/-- Further cuts do not make the bound worse. -/
theorem bound_below {m m' : Model K} (hD : D.SolvesFirstStage m) (hweights : m.HasWeights)
    (h : m.IsTightened m') {solutions solutions' : List (List (StageSolution K))}
    (hsolutions : m.firstStageSolutions = .ok solutions)
    (hsolutions' : m'.firstStageSolutions = .ok solutions') :
    m.configuration.sense.below (m.boundWith solutions) (m'.boundWith solutions') := by
  have hrows : m'.firstRows = m.firstRows := by
    unfold Model.firstRows
    rw [h.configuration]
  unfold Model.boundWith
  rw [hrows, h.configuration, Decisions.boundOf_eq, Decisions.boundOf_eq, Risk.expectation_eq_dot,
    Risk.expectation_eq_dot]
  refine Sense.below_dot hweights.initial (forall₂_zipWith (fun q hq row row' hrow => ?_)
    (firstStageSolutions_below hD h hsolutions hsolutions'))
  rw [Decisions.expectedObjective_eq, Decisions.expectedObjective_eq, Risk.expectation_eq_dot,
    Risk.expectation_eq_dot]
  refine Sense.below_dot (hweights.rows q hq) ?_
  rw [List.forall₂_map_left_iff, List.forall₂_map_right_iff]
  exact hrow

end FirstStage

/-! ## What calls keep -/

section Develops

variable {α β : Type}

/-- What a model keeps along calls: the configuration, the cuts of all stores, and
all of the problems but their cuts. -/
structure Model.Develops (m m' : Model α) : Prop where
  configuration : m'.configuration = m.configuration
  storeShape : ∀ stages states, m'.stores.fits stages states = m.stores.fits stages states
  problemShape : ∀ stages states, m'.problems.fits stages states = m.problems.fits stages states
  stores : ∀ t i s', m'.stores.get? t i = some s' →
    ∃ s, m.stores.get? t i = some s ∧ s.cuts <+: s'.cuts
  problems : ∀ t i p', m'.problems.get? t i = some p' →
    ∃ p, m.problems.get? t i = some p ∧ p' = { p with cuts := p'.cuts }

namespace Model.Develops

variable {m m' m'' : Model α}

theorem refl (m : Model α) : m.Develops m :=
  ⟨rfl, fun _ _ => rfl, fun _ _ => rfl, fun _ _ s hs => ⟨s, hs, List.prefix_rfl⟩,
    fun _ _ p hp => ⟨p, hp, rfl⟩⟩

theorem trans (h : m.Develops m') (h' : m'.Develops m'') : m.Develops m'' where
  configuration := h'.configuration.trans h.configuration
  storeShape stages states := (h'.storeShape stages states).trans (h.storeShape stages states)
  problemShape stages states :=
    (h'.problemShape stages states).trans (h.problemShape stages states)
  stores := by
    intro t i s'' hs''
    obtain ⟨s', hs', hcuts'⟩ := h'.stores t i s'' hs''
    obtain ⟨s, hs, hcuts⟩ := h.stores t i s' hs'
    exact ⟨s, hs, hcuts.trans hcuts'⟩
  problems := by
    intro t i p'' hp''
    obtain ⟨p', hp', hsame'⟩ := h'.problems t i p'' hp''
    obtain ⟨p, hp, hsame⟩ := h.problems t i p' hp'
    exact ⟨p, hp, by rw [hsame', hsame]⟩

end Model.Develops

/-- An invariant of models that lasts: it does not mind cuts that are added to a store,
the cuts that a problem is loaded with, solutions of the first stage, and figures that are
computed. -/
structure Model.Lasts (inv : Model α → Prop) : Prop where
  stores : ∀ {m : Model α} {t i : Nat} {s s' : Store α}, inv m → m.stores.get? t i = some s →
    s.cuts <+: s'.cuts → inv { m with stores := m.stores.put t i s' }
  problems : ∀ {m : Model α} {t i : Nat} {p : StageProblem α} (cuts : List (Cut α)), inv m →
    m.problems.get? t i = some p →
    inv { m with problems := m.problems.put t i { p with cuts := cuts } }
  solutions : ∀ {m : Model α} (firstStage : List (List (StageSolution α))), inv m →
    inv { m with firstStage := firstStage }
  bound : ∀ {m : Model α} (b : α), inv m → inv { m with figures := m.figures.withBound b }
  interval : ∀ {m : Model α} (interval : Option (Interval α)), inv m →
    inv { m with figures := m.figures.withInterval interval }

theorem Model.Lasts.develops (m₀ : Model α) : Model.Lasts m₀.Develops where
  stores := by
    intro m t i s s' hm hs hcuts
    refine hm.trans ⟨rfl, fun _ _ => Grid.fits_put .., fun _ _ => rfl, fun t' i' s'' hs'' => ?_,
      fun _ _ p hp => ⟨p, hp, rfl⟩⟩
    rcases Grid.get?_put hs'' with ⟨rfl, rfl, rfl⟩ | hs''
    · exact ⟨s, hs, hcuts⟩
    · exact ⟨s'', hs'', List.prefix_rfl⟩
  problems := by
    intro m t i p cuts hm hp
    refine hm.trans ⟨rfl, fun _ _ => rfl, fun _ _ => Grid.fits_put ..,
      fun _ _ s hs => ⟨s, hs, List.prefix_rfl⟩, fun t' i' q hq => ?_⟩
    rcases Grid.get?_put hq with ⟨rfl, rfl, rfl⟩ | hq
    · exact ⟨p, hp, rfl⟩
    · exact ⟨q, hq, rfl⟩
  solutions := fun _ hm => { hm with }
  bound := fun _ hm => { hm with }
  interval := fun _ hm => { hm with }

/-- A store that has grown counts for more. -/
theorem Model.cutCount_le {m : Model α} {t i : Nat} {s s' : Store α}
    (hs : m.stores.get? t i = some s) (h : s.cuts <+: s'.cuts) :
    m.cutCount ≤ ({ m with stores := m.stores.put t i s' } : Model α).cutCount := by
  have hgrown := Grid.forall₂_put (R := fun s s' : Store α => s.cuts.length ≤ s'.cuts.length)
    (fun _ => le_rfl) hs h.length_le
  refine List.Forall₂.sum_le_sum ?_
  rw [List.forall₂_map_left_iff, List.forall₂_map_right_iff]
  refine hgrown.imp fun row row' hrow => List.Forall₂.sum_le_sum ?_
  rw [List.forall₂_map_left_iff, List.forall₂_map_right_iff]
  exact hrow

theorem Model.Lasts.cutCount (n : Nat) : Model.Lasts fun m : Model α => n ≤ m.cutCount where
  stores := fun hm hs hcuts => hm.trans (Model.cutCount_le hs hcuts)
  problems := fun _ hm _ => hm
  solutions := fun _ hm => hm
  bound := fun _ hm => hm
  interval := fun _ hm => hm

namespace Model

variable {inv : Model α → Prop} (hinv : Lasts inv)

include hinv

theorem onStore_lasts {t i : Nat} {op : Transition (Store α) β}
    (hop : ∀ s, s.cuts <+: (op.perform s).2.cuts) :
    Transition.Ensures inv (onStore t i op) fun _ => True := by
  intro m hm
  refine ⟨?_, fun _ _ => trivial⟩
  unfold onStore
  rw [Transition.perform_of]
  cases hs : m.stores.get? t i with
  | none => exact hm
  | some s => exact hinv.stores hm hs (hop s)

theorem onProblem_lasts {t i : Nat}
    {change : StageProblem α → Except Failure (StageProblem α)}
    (hchange : ∀ p p', change p = .ok p' → p' = { p with cuts := p'.cuts }) :
    Transition.Ensures inv (onProblem t i change) fun _ => True := by
  intro m hm
  refine ⟨?_, fun _ _ => trivial⟩
  unfold onProblem
  rw [Transition.perform_of]
  cases hp : m.problems.get? t i with
  | none => exact hm
  | some p =>
    dsimp only
    cases hp' : change p with
    | error e => exact hm
    | ok p' =>
      rw [hchange p p' hp']
      exact hinv.problems p'.cuts hm hp

variable [Scalar α]

theorem mergeAt_lasts (t i : Nat) (deltas : List (Delta α)) :
    Transition.Ensures inv (mergeAt t i deltas) fun _ => True := by
  unfold mergeAt
  refine Transition.Ensures.get.bind fun m _ => onStore_lasts hinv fun s => ?_
  have hmerge : s.cuts <+: ((Store.merge deltas).perform s).2.cuts := by
    unfold Store.merge
    rw [Transition.perform_bind_ok (Transition.perform_get s), Transition.perform_bind,
      Transition.perform_outcome]
    cases s.checkDeltas deltas with
    | error e => exact List.prefix_rfl
    | ok u => exact List.prefix_append _ _
  rw [Transition.perform_bind]
  rcases hrun : (Store.merge deltas).perform s with ⟨e | changed, s'⟩
  · rw [hrun] at hmerge
    exact hmerge
  · rw [hrun] at hmerge
    exact hmerge

theorem mergeAll_lasts (grids : List (Grid (Delta α))) :
    Transition.Ensures inv (mergeAll grids) fun _ => True := by
  unfold mergeAll
  refine Transition.Ensures.get.bind fun m _ => Transition.Ensures.forM fun e _ => ?_
  refine (Transition.Ensures.outcome fun _ _ => trivial).bind fun deltas _ => ?_
  exact (mergeAt_lasts hinv _ _ deltas).discard

theorem reload_lasts (selection : Selection) (recount : Bool) :
    Transition.Ensures inv (reload selection recount) fun _ => True := by
  have hload : ∀ t i, Transition.Ensures inv (do
      let store ← Transition.outcome ((← get).stores.entry t i)
      let cuts ← Transition.outcome (selection.select store)
      onProblem t i fun p => p.setCuts cuts : Transition (Model α) Unit) fun _ => True := by
    intro t i
    refine Transition.Ensures.get.bind fun m _ => ?_
    refine (Transition.Ensures.outcome fun _ _ => trivial).bind fun s _ => ?_
    refine (Transition.Ensures.outcome fun _ _ => trivial).bind fun cuts _ => ?_
    refine onProblem_lasts hinv fun p p' hp' => ?_
    obtain ⟨-, rfl⟩ := StageProblem.setCuts_eq_ok.mp hp'
    rfl
  unfold reload
  refine Transition.Ensures.get.bind fun m _ => Transition.Ensures.forM fun e _ => ?_
  unfold reloadAt
  refine Transition.Ensures.get.bind fun m _ => ?_
  split
  · exact (onStore_lasts hinv fun s => List.prefix_rfl).bind fun _ _ => hload _ _
  · exact hload _ _

theorem updateBound_lasts : Transition.Ensures inv updateBound fun _ => True := by
  intro m hm
  refine ⟨?_, fun _ _ => trivial⟩
  rw [updateBound_perform]
  cases m.firstStageSolutions with
  | error e => exact hm
  | ok solutions =>
    have hsolved := hinv.solutions solutions hm
    dsimp only
    split
    · exact hsolved
    · exact hinv.bound (m.boundWith solutions) hsolved

theorem rebound_lasts (selection : Selection) (recount : Bool) :
    Transition.Ensures inv (rebound selection recount) fun _ => True :=
  (reload_lasts hinv selection recount).bind fun _ _ => updateBound_lasts hinv

theorem absorb_lasts (selection : Selection) (grids : List (Grid (Delta α))) :
    Transition.Ensures inv (absorb selection grids) fun _ => True :=
  (mergeAll_lasts hinv grids).bind fun _ _ => rebound_lasts hinv selection false

end Model

/-- Whatever comes of a call, invariants of its model that last still hold. -/
theorem Coordinator.step_lasts [Statistical α] [Seeded α] {inv : Model α → Prop}
    (hinv : Model.Lasts inv) {c : Coordinator α} (hidle : c.phase = .idle) (turn : Turn α)
    (hc : inv c.model) : inv (c.step turn).after.model := by
  obtain ⟨snapshot, model, hafter, -, hmodel⟩ := step_cases hidle turn
  rw [hafter]
  rcases hmodel with rfl | ⟨samples, rfl⟩ | ⟨n, selection, due, grids, -, -, rfl⟩
  · exact hc
  · exact hinv.interval _ hc
  · exact (Model.absorb_lasts hinv selection grids c.model hc).1

theorem Coordinator.step_develops [Statistical α] [Seeded α] {c : Coordinator α}
    (hidle : c.phase = .idle) (turn : Turn α) : c.model.Develops (c.step turn).after.model :=
  step_lasts (.develops c.model) hidle turn (.refl _)

end Develops

/-! ## Bounds -/

section Bounds

variable {K : Type} [Field K] [LinearOrder K] {D : Decisions K} {m₀ m m' : Model K}

/-- Figures whose bound has been computed and stands. -/
def Figures.IsBound (f : Figures K) (b : K) : Prop := f.bound = some b ∧ f.entered.bound = none

/-- A bound that comes from the solutions of the first stage, with cuts of the
stores loaded. -/
structure Model.IsBounded (m : Model K) (b : K) : Prop where
  figures : m.figures.IsBound b
  solutions : ∃ solutions, m.firstStageSolutions = .ok solutions ∧ b = m.boundWith solutions
  loaded : ∀ i p, m.problems.get? 0 i = some p →
    ∀ s, m.stores.get? 0 i = some s → p.cuts ⊆ s.cuts

/-- Whether the problems of the first stage are loaded with all cuts. -/
def Model.IsFull (m : Model K) : Prop :=
  ∀ i p, m.problems.get? 0 i = some p → ∃ s, m.stores.get? 0 i = some s ∧ p.cuts = s.cuts

theorem Decisions.SolvesFirstStage.of_develops (hD : D.SolvesFirstStage m₀) (h : m₀.Develops m) :
    D.SolvesFirstStage m where
  sense := by
    intro i p hp
    obtain ⟨p₀, hp₀, hsame⟩ := h.problems 0 i p hp
    rw [hsame, h.configuration]
    exact hD.sense i p₀ hp₀
  optimum := by
    intro i p hp s hs cuts sol hsol
    obtain ⟨p₀, hp₀, hsame⟩ := h.problems 0 i p hp
    rw [hsame] at hs hsol ⊢
    rw [h.configuration] at hsol ⊢
    exact hD.optimum i p₀ hp₀ s hs cuts sol hsol

theorem Model.HasWeights.of_develops (hweights : m₀.HasWeights) (h : m₀.Develops m) :
    m.HasWeights := by
  have hrows : m.firstRows = m₀.firstRows := by
    unfold Model.firstRows
    rw [h.configuration]
  exact ⟨h.configuration ▸ hweights.initial, hrows ▸ hweights.rows⟩

omit [Field K] [LinearOrder K] in
theorem Model.Develops.hasPairs (h : m.Develops m') (hm : m.HasPairs) : m'.HasPairs := by
  constructor
  · unfold Model.stageCount Model.markovCount
    rw [h.storeShape, h.configuration]
    exact hm.stores
  · unfold Model.stageCount Model.markovCount
    rw [h.problemShape, h.configuration]
    exact hm.problems

/-- A model whose problems have been loaded anew has the bound of the cuts that have
been loaded. -/
theorem Model.rebound_isBounded (hm : m.HasPairs) {selection : Selection} {recount : Bool}
    (h : (Model.rebound selection recount).perform m = (.ok ⟨⟩, m')) :
    (∃ b, m'.IsBounded b) ∧ (selection = .all → m'.IsFull) := by
  obtain ⟨hloadable, solutions, hsolutions, rfl⟩ := Model.rebound_spec hm.stores h
  -- the store and the cuts of a problem of the first stage
  have hcuts : ∀ i p', (m.loaded selection recount).problems.get? 0 i = some p' →
      ∃ s, (m.loaded selection recount).stores.get? 0 i = some s ∧
        selection.select s = .ok p'.cuts := by
    intro i p' hp'
    have hfits : (m.loaded selection recount).problems.fits m.stageCount m.markovCount = true :=
      (Grid.fits_mapEntries ..).trans hm.problems
    obtain ⟨s, hs⟩ := (Grid.get?_isSome hm.stores).mpr ((Grid.get?_isSome hfits).mp ⟨p', hp'⟩)
    obtain ⟨p, hp, hstore, hselect⟩ := Model.loaded_spec hloadable hs
    cases hp.symm.trans hp'
    exact ⟨_, hstore, hselect⟩
  refine ⟨⟨_, ⟨rfl, rfl⟩, ⟨solutions, hsolutions, rfl⟩, fun i p hp s hs => ?_⟩, ?_⟩
  · obtain ⟨s', hs', hselect⟩ := hcuts i p hp
    cases hs.symm.trans hs'
    exact Selection.mem_of_select hselect
  · rintro rfl i p hp
    obtain ⟨s', hs', hselect⟩ := hcuts i p hp
    exact ⟨s', hs', (Except.ok.inj hselect).symm⟩

/-- A model that has absorbed the results of workers has the bound of the cuts that
have been loaded. -/
theorem Model.absorb_isBounded (hm : m.HasPairs) {selection : Selection}
    {grids : List (Grid (Delta K))}
    (h : (Model.absorb selection grids).perform m = (.ok ⟨⟩, m')) :
    (∃ b, m'.IsBounded b) ∧ (selection = .all → m'.IsFull) := by
  obtain ⟨-, h⟩ := (Model.absorb_eq_ok hm.stores).mp h
  have hmerged : (m.merged grids).HasPairs :=
    ⟨(Grid.fits_mapEntries ..).trans hm.stores, hm.problems⟩
  exact Model.rebound_isBounded hmerged h

variable [IsStrictOrderedRing K]

/-- A bound with all cuts loaded has not been surpassed before. -/
theorem isBounded_below (hD : D.SolvesFirstStage m₀) (hweights : m₀.HasWeights)
    (hm : m₀.Develops m) (h : m.Develops m') (hfull : m'.IsFull) {b b' : K} (hb : m.IsBounded b)
    (hb' : m'.IsBounded b') : m₀.configuration.sense.below b b' := by
  obtain ⟨solutions, hsolutions, rfl⟩ := hb.solutions
  obtain ⟨solutions', hsolutions', rfl⟩ := hb'.solutions
  have htight : m.IsTightened m' := by
    refine ⟨h.configuration, fun i p' hp' => ?_⟩
    obtain ⟨p, hp, hsame⟩ := h.problems 0 i p' hp'
    obtain ⟨s', hs', hcuts⟩ := hfull i p' hp'
    obtain ⟨s, hs, hprefix⟩ := h.stores 0 i s' hs'
    refine ⟨p, hp, hsame, ?_⟩
    rw [hcuts]
    exact List.Subset.trans (hb.loaded i p hp s hs) hprefix.subset
  rw [← hm.configuration]
  exact bound_below (hD.of_develops hm) (hweights.of_develops hm) htight hsolutions hsolutions'

variable [Quantiles K] [Seeded K]

omit [IsStrictOrderedRing K] in
/-- A backward round that succeeds sets the bound of the cuts that it loads. -/
theorem Coordinator.step_isBounded {c : Coordinator K} (hidle : c.phase = .idle)
    (hc : c.model.HasPairs) {turn : Turn K} {n : Value} {selection : Selection}
    {due : Nat → Except Failure Bool} (hcall : turn.call = .backward n selection due)
    {a : Answer K} (hok : (c.step turn).outcome = .ok a) :
    (∃ b, (c.step turn).after.model.IsBounded b) ∧
      (selection = .all → (c.step turn).after.model.IsFull) := by
  obtain ⟨grids, -, habsorb⟩ := step_backward_ok hidle hcall hok
  exact Model.absorb_isBounded hc habsorb

omit [IsStrictOrderedRing K] [Quantiles K] [Seeded K] in
/-- Whatever cuts one model is loaded with, its stores keep their cuts and its problems
keep the rest. -/
theorem Model.rebound_develops (hm : m₀.HasPairs) {selection selection' : Selection}
    {recount recount' : Bool}
    (h : (Model.rebound selection recount).perform m₀ = (.ok ⟨⟩, m))
    (h' : (Model.rebound selection' recount').perform m₀ = (.ok ⟨⟩, m')) : m.Develops m' := by
  obtain ⟨-, solutions, -, rfl⟩ := Model.rebound_spec hm.stores h
  obtain ⟨-, solutions', -, rfl⟩ := Model.rebound_spec hm.stores h'
  refine ⟨rfl, fun _ _ => ?_, fun _ _ => ?_, fun t i s' hs' => ?_, fun t i p' hp' => ?_⟩
  · simp [Model.loaded, Model.altered]
  · simp [Model.loaded, Model.altered]
  · simp only [Model.loaded, Model.altered, Grid.get?_mapEntries, Option.map_eq_some_iff] at hs' ⊢
    obtain ⟨s, hs, rfl⟩ := hs'
    exact ⟨_, ⟨s, hs, rfl⟩, by simp⟩
  · simp only [Model.loaded, Model.altered, Grid.get?_mapEntries, Option.map_eq_some_iff] at hp' ⊢
    obtain ⟨p, hp, rfl⟩ := hp'
    refine ⟨_, ⟨p, hp, rfl⟩, ?_⟩
    cases m₀.stores.get? t i with
    | none => rfl
    | some s => rfl

/-- A backward round that has loaded the cuts of a selection and has succeeded. -/
def Step.HasLoaded {α : Type} (s : Step α) (selection : Selection) : Prop :=
  (∃ n due, s.turn.call = .backward n selection due) ∧ ∃ a, s.outcome = .ok a

theorem Coordinator.steps_below (hD : D.SolvesFirstStage m₀) (hweights : m₀.HasWeights)
    {turns : List (Turn K)} :
    ∀ {c : Coordinator K}, c.phase = .idle → c.model.HasPairs → m₀.Develops c.model →
      (steps turns c).Pairwise fun s s' => ∀ selection, s.HasLoaded selection →
        s'.HasLoaded .all → ∃ b b', s.after.model.figures.IsBound b ∧
          s'.after.model.figures.IsBound b' ∧ m₀.configuration.sense.below b b' := by
  induction turns with
  | nil => exact fun _ _ _ => .nil
  | cons turn turns ih =>
    intro c hidle hc hm₀
    have hstep := step_develops hidle turn
    have hidle' : (c.step turn).after.phase = .idle := (step_counted hidle turn).1
    refine .cons (fun s' hs' => ?_) (ih hidle' (hstep.hasPairs hc) (hm₀.trans hstep))
    rintro selection ⟨⟨n, due, hcall⟩, a, hok⟩
    obtain ⟨⟨b, hb⟩, -⟩ := step_isBounded hidle hc hcall hok
    -- whatever comes after this round, its cuts are kept
    refine forall_steps
      (I := fun c' => c'.phase = .idle ∧ c'.model.HasPairs ∧
        (c.step turn).after.model.Develops c'.model)
      (P := fun s' => s'.HasLoaded .all → ∃ b b', (c.step turn).after.model.figures.IsBound b ∧
        s'.after.model.figures.IsBound b' ∧ m₀.configuration.sense.below b b')
      (fun c' turn' hc' => ?_) ⟨hidle', hstep.hasPairs hc, .refl _⟩ s' hs'
    obtain ⟨hphase, hpairs, hdevelops⟩ := hc'
    have hstep' := step_develops hphase turn'
    refine ⟨?_, (step_counted hphase turn').1, hstep'.hasPairs hpairs, hdevelops.trans hstep'⟩
    rintro ⟨⟨n', due', hcall'⟩, a', hok'⟩
    obtain ⟨⟨b', hb'⟩, hfull⟩ := step_isBounded hphase hpairs hcall' hok'
    exact ⟨b, b', hb.figures, hb'.figures, isBounded_below hD hweights (hm₀.trans hstep)
      (hdevelops.trans hstep') (hfull rfl) hb hb'⟩

/-- A backward round that loads all cuts sets a bound that no backward round before it
has surpassed, whatever calls there are in between; and from one state of the stores,
level-one selection leads to no better a bound than all cuts do. -/
theorem Coordinator.bounds_below {c : Coordinator K} (hidle : c.phase = .idle)
    (hc : c.model.HasPairs) (hD : D.SolvesFirstStage c.model) (hweights : c.model.HasWeights) :
    (∀ turns : List (Turn K), (steps turns c).Pairwise fun s s' => ∀ selection,
      s.HasLoaded selection → s'.HasLoaded .all → ∃ b b', s.after.model.figures.IsBound b ∧
        s'.after.model.figures.IsBound b' ∧ c.model.configuration.sense.below b b') ∧
    ∀ recount recount' m m',
      (Model.rebound .levelOne recount).perform c.model = (.ok ⟨⟩, m) →
      (Model.rebound .all recount').perform c.model = (.ok ⟨⟩, m') →
      ∃ b b', m.figures.IsBound b ∧ m'.figures.IsBound b' ∧
        c.model.configuration.sense.below b b' := by
  refine ⟨fun turns => steps_below hD hweights hidle hc (.refl _), ?_⟩
  intro recount recount' m m' h h'
  obtain ⟨⟨b, hb⟩, -⟩ := Model.rebound_isBounded hc h
  obtain ⟨⟨b', hb'⟩, hfull⟩ := Model.rebound_isBounded hc h'
  have hloaded := (Model.rebound_lasts (.develops c.model) .levelOne recount c.model (.refl _)).1
  rw [h] at hloaded
  exact ⟨b, b', hb.figures, hb'.figures, isBounded_below hD hweights hloaded
    (Model.rebound_develops hc h h') (hfull rfl) hb hb'⟩

namespace Decisions

/-- In the valley there is nothing to decide: the way to the state is paid for, and five is
passed on. -/
def valleyDecisions : Decisions ℚ where
  options _ _ s x := {((s + 1) * |x.headD 0|, [5])}

theorem valleyTheta_le {t : Situation ℚ} (h : t.setting.final = false) (theta : ℚ) :
    valleyTheta t ≤ theta ↔ 0 ≤ theta ∧ ∀ c ∈ t.cuts, c.eval [5] ≤ theta := by
  rw [valleyTheta, h, if_neg Bool.false_ne_true]
  induction t.cuts with
  | nil => simp
  | cons c cuts ih =>
    rw [List.map_cons, List.foldr_cons, max_le_iff, ih, List.forall_mem_cons]
    exact and_left_comm

/-- The first stage of the valley is solved to the optimum, whatever cuts are loaded. -/
theorem valley_isBest (p : StageProblem ℚ) (hsense : p.setting.sense = .min)
    (hfinal : p.setting.final = false) (hbound : p.setting.bound = some (.finite 0))
    (t i s : Nat) (x : Point ℚ) :
    Sense.min.IsBest (valleyDecisions.approximations p t i s x)
      (((s : Int) + 1) * |x.headD 0| + valleyTheta p.situation) := by
  have hadmits : ∀ theta, valleyDecisions.Admits p t i [5] theta
      ↔ valleyTheta p.situation ≤ theta := by
    intro theta
    rw [Admits, hsense, hbound, hfinal, if_neg Bool.false_ne_true, valleyTheta_le hfinal]
    simp [Sense.below, StageProblem.situation]
  refine ⟨⟨_, rfl, _, (hadmits _).mpr le_rfl, by push_cast; rfl⟩, ?_⟩
  rintro _ ⟨o, rfl, theta, h, rfl⟩
  have hleast := (hadmits theta).mp h
  show _ ≤ _
  push_cast
  linarith

theorem valley_solvesFirstStage : valleyDecisions.SolvesFirstStage valleyModel where
  sense i p hp := by
    rw [Grid.ofFn_eq_some hp]
    rfl
  optimum i p hp s _ cuts sol hsol := by
    rw [Grid.ofFn_eq_some hp] at hsol ⊢
    obtain ⟨-, h⟩ := StageProblem.solve_eq_ok.mp hsol
    cases h
    exact valley_isBest { valleyProblemAt 0 i with cuts := cuts } rfl rfl rfl 0 i s [3]

end Decisions

/-- A round of level-one selection, a forward round and a round that loads all cuts:
both bounds are the optimum. -/
theorem Coordinator.bounds_below_valley :
    let _ : Quantiles ℚ := ⟨id, fun level _ => level⟩
    let _ : Seeded ℚ := ⟨fun _ => .cycle 0 []⟩
    let backward := fun selection => Call.backward (.int 2) selection fun _ => .ok true
    let turns : List (Turn ℚ) := [⟨backward .levelOne, ⟨.thread, 2⟩, [.completes 0, .completes 1]⟩,
      ⟨.forward (.int 1) fun _ => .ok true, ⟨.serial, 1⟩, [.completes 0]⟩,
      ⟨backward .all, ⟨.thread, 2⟩, [.completes 1, .completes 0]⟩]
    let c := Coordinator.start Decisions.valleyModel ⟨.serial, 1⟩ (.int 7)
    ((steps turns c).map fun s => (s.outcome.isOk, s.after.model.figures.bound))
        = [(true, some 14), (true, some 14), (true, some 14)] ∧
      (steps turns c).Pairwise (fun s s' => ∀ selection, s.HasLoaded selection →
        s'.HasLoaded .all → ∃ b b', s.after.model.figures.IsBound b ∧
          s'.after.model.figures.IsBound b' ∧ b ≤ b') ∧
      ∀ recount recount' m m',
        (Model.rebound .levelOne recount).perform c.model = (.ok ⟨⟩, m) →
        (Model.rebound .all recount').perform c.model = (.ok ⟨⟩, m') →
        ∃ b b', m.figures.IsBound b ∧ m'.figures.IsBound b' ∧ b ≤ b' := by
  intro _ _ backward turns c
  have hweights : c.model.HasWeights := by
    refine ⟨fun p hp => ?_, fun q hq a ha => ?_⟩
    · obtain rfl : p = 1 := List.mem_singleton.mp hp
      norm_num
    · obtain rfl : q = Tensor.vector [1 / 4, 3 / 4] := List.mem_singleton.mp hq
      have ha' : a ∈ [(1 / 4 : ℚ), 3 / 4] := ha
      simp only [List.mem_cons, List.not_mem_nil, or_false] at ha'
      rcases ha' with rfl | rfl <;> norm_num
  obtain ⟨hrounds, hselections⟩ := bounds_below (c := c) rfl ⟨rfl, rfl⟩
    Decisions.valley_solvesFirstStage hweights
  exact ⟨by decide +kernel, hrounds turns, hselections⟩

end Bounds

end Multistage
