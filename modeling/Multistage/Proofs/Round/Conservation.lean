/-
Multistage.Proofs.Round.Conservation — what becomes of the cuts of a backward round.

Every worker hands back exactly what its passes have added to the stores that it was
given, and every cut and point that is handed back is in the store of its pair
afterwards, once, behind all that was there before (`Step.Conserves`).  The problems are
loaded with what a selection picks of these stores.  So the stores of a model never
hold two equal cuts or points, however many rounds are run
(`Coordinator.rounds_conserve`).

Values are compared by value; all that is asked of them is that no entry of what the
workers hand back differs from itself.
-/
import Multistage.Proofs.Cut.Join
import Multistage.Proofs.Round.Dimension
import Multistage.Proofs.Round.Monotone
import Multistage.Proofs.Round.Scheduling
import Multistage.Proofs.Round.Share

namespace Multistage

variable {α : Type}

/-! ## Stores -/

section Stores

variable [Scalar α]

/-- A store after deltas have been joined into it: the new items stand behind the old
ones, and the votes are those of the store as it is now. -/
structure Store.Absorbs (sense : Sense) (old : Store α) (deltas : List (Delta α))
    (new : Store α) : Prop where
  stateCount : new.stateCount = old.stateCount
  cuts : ∃ cuts, new.cuts = old.cuts ++ cuts ∧
    IsJoin Cut.sortKey old.cuts (deltas.map Delta.cuts) cuts
  points : ∃ points, new.points = old.points ++ points ∧
    IsJoin id old.points (deltas.map Delta.points) points
  votes : new.votes = some (.counted (new.countVotes sense))

variable [Scalar.IsOrdered α] {s : Store α} {deltas : List (Delta α)}

theorem Store.joined_absorbs (sense : Sense) (h : ∀ d ∈ deltas, d.IsNumeric) :
    s.Absorbs sense deltas (s.joined sense deltas) where
  stateCount := rfl
  cuts := ⟨_, rfl, newCuts_isJoin h⟩
  points := ⟨_, rfl, newPoints_isJoin h⟩
  votes := rfl

theorem Store.IsDistinct.joined (hs : s.IsDistinct) (sense : Sense)
    (h : ∀ d ∈ deltas, d.IsNumeric) : (s.joined sense deltas).IsDistinct where
  cuts := (newCuts_isJoin h).distinct Cut.sortKey_beq hs.cuts
  points := (newPoints_isJoin h).distinct (fun _ _ => rfl) hs.points

/-- Once the results of workers have been absorbed, the deltas of a pair are in its
store, and its problem is loaded from there. -/
theorem Model.absorb_absorbs {m m' : Model α} {selection : Selection}
    {grids : List (Grid (Delta α))}
    (hfits : m.stores.fits m.stageCount m.markovCount = true)
    (hnumeric : ∀ g ∈ grids, ∀ t i d, g.get? t i = some d → d.IsNumeric)
    (h : (absorb selection grids).perform m = (.ok ⟨⟩, m')) {t i : Nat} {old : Store α}
    (hold : m.stores.get? t i = some old) :
    ∃ new p, m'.stores.get? t i = some new ∧ m'.problems.get? t i = some p ∧
      old.Absorbs m.configuration.sense (Grid.deltasAt grids t i) new ∧
      selection.select new = .ok p.cuts := by
  obtain ⟨-, hrebound⟩ := (absorb_eq_ok hfits).mp h
  have hmerged : (m.merged grids).stores.fits m.stageCount m.markovCount = true :=
    (Grid.fits_mapEntries ..).trans hfits
  obtain ⟨hloadable, solutions, -, rfl⟩ := rebound_spec hmerged hrebound
  have hjoined : (m.merged grids).stores.get? t i
      = some (old.joined m.configuration.sense (Grid.deltasAt grids t i)) := by
    simp [merged, hold]
  obtain ⟨p, hp, hstore, hselect⟩ := loaded_spec hloadable hjoined
  rw [Store.prepared_false] at hstore hselect
  refine ⟨_, p, hstore, hp, Store.joined_absorbs _ fun d hd => ?_, hselect⟩
  obtain ⟨g, hg, hd⟩ := List.mem_filterMap.mp hd
  exact hnumeric g hg t i d hd

end Stores

/-! ## Rounds -/

/-- A worker that has been given stores and has handed back deltas: what it has of
every pair in the end is the store that it was given, followed by the delta, and the
delta has as many cuts and as many points as `count` says. -/
def Assignment.Contributes [Scalar α] [Seeded α] (a : Assignment α) (selection : Selection)
    (due : Nat → Except Failure Bool) (count : Nat → Nat → Nat) (g : Grid (Delta α)) : Prop :=
  a.backward selection due = .ok g ∧ ∃ final, a.finalModel selection due = .ok final ∧
    ∀ t i s, a.stores.get? t i = some s → ∃ d s', final.stores.get? t i = some s' ∧
      g.get? t i = some d ∧ s.Continues d s' ∧
      d.cuts.length = count t i ∧ d.points.length = count t i

namespace Step

/-- Whether no worker of a backward round hands back an entry that differs from
itself. -/
def IsNumeric [Scalar α] [Seeded α] (s : Step α) : Prop :=
  ∀ n selection due grids, s.turn.call = .backward n selection due →
    s.before.results n (fun a => a.backward selection due) s.turn.schedule = .ok grids →
      ∀ g ∈ grids, ∀ t i d, g.get? t i = some d → d.IsNumeric

/-- What a backward round does with the deltas of its workers.  A worker runs the ceiling
of `n / k` passes, `k` being the number of workers; the quotient is a double. -/
structure Conserves [Scalar α] [Seeded α] (s : Step α) (n : Value) (selection : Selection)
    (due : Nat → Except Failure Bool) (share : Int) (seeds : List Value)
    (grids : List (Grid (Delta α))) : Prop where
  shared : iterationsPerWorker n (.int s.before.pool.size) = .ok share
  exact : ∀ k : Nat, n = .int k → k ≤ 2 ^ 53 →
    share = ((k + s.before.pool.size - 1) / s.before.pool.size : Nat)
  seeded : s.before.seeds = .ok seeds
  workers : seeds.length = s.before.pool.size
  returned : s.before.results n (fun a => a.backward selection due) s.turn.schedule = .ok grids
  contributions : List.Forall₂ (fun seed g =>
    (s.before.assignment share seed).Contributes selection due
      (fun t i => if t + 1 < s.before.model.stageCount ∧
        s.before.model.configuration.reaches t i = true then share.toNat else 0) g) seeds grids
  stores : ∀ t i old, s.before.model.stores.get? t i = some old → ∃ new p,
    s.after.model.stores.get? t i = some new ∧ s.after.model.problems.get? t i = some p ∧
    old.Absorbs s.before.model.configuration.sense (Grid.deltasAt grids t i) new ∧
    selection.select new = .ok p.cuts

/-- Whether a call loses, repeats or moves nothing, if it is a backward round and
succeeds. -/
def IsConserving [Scalar α] [Seeded α] (s : Step α) : Prop :=
  ∀ n selection due a, s.turn.call = .backward n selection due → s.outcome = .ok a →
    ∃ share seeds grids, s.Conserves n selection due share seeds grids

end Step

/-- Whether no store of a model has two equal cuts or two equal points. -/
def Model.IsDistinct [Scalar α] (m : Model α) : Prop :=
  ∀ t i s, m.stores.get? t i = some s → s.IsDistinct

theorem Blueprint.model_isDistinct [Scalar α] {b : Blueprint α} {m : Model α}
    (hm : b.model = .ok m) : m.IsDistinct := by
  obtain ⟨_, _, _, hmade⟩ := model_spec hm
  intro t i s hs
  rw [hmade.stores] at hs
  rw [Grid.ofFn_eq_some hs]
  exact ⟨.nil, .nil⟩

namespace Coordinator

/-- A coordinator between two calls: its model has a store for every pair and a
transition row for every pair that is followed by a stage, and its workers are given the
same. -/
structure IsConsistent (c : Coordinator α) : Prop where
  idle : c.phase = .idle
  stores : c.model.stores.fits c.model.stageCount c.model.markovCount = true
  rows : Blueprint.HasRows c.model.stageCount c.model.markovCount c.model.configuration.transition
  stageCount : c.snapshot.stageCount = c.model.stageCount
  markovCount : c.snapshot.markovCount = c.model.markovCount
  transition : c.snapshot.transition = c.model.configuration.transition

section Shares

/-- Every worker gets the ceiling of the exact quotient, unless there are very many
passes. -/
theorem shareOf_spec {c : Coordinator α} {n : Value} {share : Int} (h : c.shareOf n = .ok share) :
    iterationsPerWorker n (.int c.pool.size) = .ok share ∧
      ∀ k : Nat, n = .int k → k ≤ 2 ^ 53 →
        share = ((k + c.pool.size - 1) / c.pool.size : Nat) := by
  obtain ⟨u, hlist, hshare⟩ := bind_eq_ok.mp h
  refine ⟨hshare, ?_⟩
  rintro k rfl hk
  have hsmall : c.pool.size < 2 ^ 63 := by
    by_contra hlarge
    simp only [Pool.checkListable, Pool.isListable, decide_eq_true_eq] at hlist
    rw [if_neg hlarge] at hlist
    cases hlist
  have hsome : 1 ≤ c.pool.size := by
    by_contra hnone
    have hzero : c.pool.size = 0 := by omega
    rw [hzero] at hshare
    cases hshare
  rw [iterationsPerWorker_exact hk hsome hsmall] at hshare
  exact (Except.ok.inj hshare).symm

end Shares

section Rounds

variable [Statistical α] [Seeded α]

/-- What every worker contributes. -/
theorem contributes {c : Coordinator α} (hc : c.IsConsistent) {share : Int} {seed : Value}
    {selection : Selection} {due : Nat → Except Failure Bool} {g : Grid (Delta α)}
    (h : (c.assignment share seed).backward selection due = .ok g) :
    (c.assignment share seed).Contributes selection due
      (fun t i => if t + 1 < c.model.stageCount ∧ c.model.configuration.reaches t i = true
        then share.toNat else 0) g := by
  obtain ⟨made, final, hmade, hfinal, hspec⟩ := Assignment.backward_spec h
  have hmade' : c.snapshot.rebuild = .ok made := hmade
  have hrows : Blueprint.HasRows c.snapshot.stageCount c.snapshot.markovCount
      c.snapshot.transition := by
    rw [hc.stageCount, hc.markovCount, hc.transition]
    exact hc.rows
  obtain ⟨hstages, hstates, htransition⟩ := Configuration.rebuild_shape hrows hmade'
  rw [hc.stageCount] at hstages
  rw [hc.markovCount] at hstates
  rw [hc.transition] at htransition
  refine ⟨h, final, hfinal, fun t i s hs => ?_⟩
  obtain ⟨d, s', hs', hd, hcontinues, hcuts, hpoints⟩ := hspec t i s hs
  have hstate : i < c.model.markovCount := ((Grid.get?_isSome hc.stores).mp ⟨s, hs⟩).2
  have hreaches : made.configuration.reaches t i = c.model.configuration.reaches t i := by
    unfold Configuration.reaches
    rw [htransition]
  have hplace : (t, i) ∈ made.configuration.passPlaces
      ↔ t + 1 < c.model.stageCount ∧ c.model.configuration.reaches t i = true := by
    rw [Configuration.mem_passPlaces, hreaches]
    show t + 1 < made.stageCount ∧ i < made.markovCount ∧ _ ↔ _
    rw [hstages, hstates]
    exact and_congr_right fun _ => and_iff_right hstate
  simp only [hplace] at hcuts hpoints
  exact ⟨d, s', hs', hd, hcontinues, hcuts, hpoints⟩

variable [Scalar.IsOrdered α]

theorem step_isConserving {c : Coordinator α} (hc : c.IsConsistent) {turn : Turn α}
    (hnumeric : (c.step turn).IsNumeric) : (c.step turn).IsConserving := by
  intro n selection due a hcall hok
  have hturn : turn.call = .backward n selection due := hcall
  obtain ⟨grids, hresults, habsorb⟩ := step_backward_ok hc.idle hturn hok
  have hdeltas := hnumeric n selection due grids hcall hresults
  obtain ⟨share, seeds, hshare, hseeds, hworkers⟩ := results_spec hresults
  obtain ⟨hiterations, hexact⟩ := shareOf_spec hshare
  have hbefore : (c.step turn).before.IsConsistent := { hc with }
  exact ⟨share, seeds, grids, hiterations, hexact, hseeds, length_seeds hseeds, hresults,
    hworkers.imp fun seed g h => contributes hbefore h,
    fun t i old hold => Model.absorb_absorbs hc.stores hdeltas habsorb hold⟩

theorem step_isDistinct {c : Coordinator α} (hidle : c.phase = .idle) {dimension : Int}
    (hdim : c.model.HasDimension dimension) (hdistinct : c.model.IsDistinct) {turn : Turn α}
    (hnumeric : (c.step turn).IsNumeric) : (c.step turn).after.model.IsDistinct := by
  obtain ⟨snapshot, model, hafter, -, hmodel⟩ := step_cases hidle turn
  rw [hafter]
  rcases hmodel with rfl | ⟨samples, rfl⟩ | ⟨n, selection, due, grids, hcall, hresults, rfl⟩
  · exact hdistinct
  · exact hdistinct
  · have hmergeable : c.model.IsMergeable grids :=
      results_isMergeable (c := (c.step turn).before) hresults
    obtain ⟨firstStage, figures, habsorb⟩ := Model.absorb_model hdim hmergeable selection
    intro t i s' hs'
    rw [habsorb] at hs'
    simp only [Model.loaded, Model.altered, Model.merged, Grid.get?_mapEntries, Option.map_map,
      Option.map_eq_some_iff] at hs'
    obtain ⟨s, hs, rfl⟩ := hs'
    refine (hdistinct t i s hs).joined _ fun d hd => ?_
    obtain ⟨g, hg, hd⟩ := List.mem_filterMap.mp hd
    exact hnumeric n selection due grids hcall hresults g hg t i d hd

end Rounds

section Runs

theorem start_isConsistent [Scalar α] {b : Blueprint α} {m : Model α}
    (hrect : ∀ t, b.transition = .ok (some t) → t.IsRectangular) (hm : b.model = .ok m)
    (pool : Pool) (seed timeout : Value) : (start m pool seed timeout).IsConsistent := by
  obtain ⟨given, _, _, hmade⟩ := Blueprint.model_spec hm
  have hrows := (Blueprint.transitionGrid_hasRows (fun t ht => hrect t (ht ▸ hmade.givenTransition))
    hmade.transition).1
  exact ⟨rfl, (Blueprint.model_hasDimension hm).stores, hrows, rfl, rfl, rfl⟩

variable [Statistical α] [Seeded α]

theorem step_isConsistent {c : Coordinator α} (hc : c.IsConsistent) (turn : Turn α) :
    (c.step turn).after.IsConsistent := by
  obtain ⟨snapshot, model, hafter, hsnapshot, -⟩ := step_cases hc.idle turn
  have hdevelops := step_develops hc.idle turn
  rw [hafter] at hdevelops ⊢
  have hconfiguration : model.configuration = c.model.configuration := hdevelops.configuration
  have hsame : snapshot.stageCount = c.model.stageCount ∧
      snapshot.markovCount = c.model.markovCount ∧
      snapshot.transition = c.model.configuration.transition := by
    rcases hsnapshot with rfl | rfl
    · exact ⟨hc.stageCount, hc.markovCount, hc.transition⟩
    · exact ⟨rfl, rfl, rfl⟩
  obtain ⟨hstages, hstates, htransition⟩ := hsame
  have hstageCount : model.stageCount = c.model.stageCount :=
    congrArg Configuration.stageCount hconfiguration
  have hmarkovCount : model.markovCount = c.model.markovCount :=
    congrArg Configuration.markovCount hconfiguration
  refine ⟨hc.idle, ?_, ?_, ?_, ?_, ?_⟩
  · show model.stores.fits model.stageCount model.markovCount = true
    rw [hstageCount, hmarkovCount]
    exact (hdevelops.storeShape _ _).trans hc.stores
  · show Blueprint.HasRows model.stageCount model.markovCount model.configuration.transition
    rw [hstageCount, hmarkovCount, hconfiguration]
    exact hc.rows
  · exact hstages.trans hstageCount.symm
  · exact hstates.trans hmarkovCount.symm
  · exact htransition.trans (congrArg _ hconfiguration.symm)

variable [Scalar.IsOrdered α]

theorem steps_conserve {dimension : Int} {turns : List (Turn α)} :
    ∀ {c : Coordinator α}, c.IsConsistent → c.model.HasDimension dimension → c.model.IsDistinct →
      (∀ s ∈ steps turns c, s.IsNumeric) →
      ∀ s ∈ steps turns c, s.IsConserving ∧ s.after.model.IsDistinct := by
  induction turns with
  | nil => exact fun _ _ _ _ s hs => absurd hs List.not_mem_nil
  | cons turn turns ih =>
    intro c hc hdim hdistinct hnumeric s hs
    have hfirst := hnumeric (c.step turn) (List.mem_cons_self ..)
    have hafter := step_isDistinct hc.idle hdim hdistinct hfirst
    rcases List.mem_cons.mp hs with rfl | hs
    · exact ⟨step_isConserving hc hfirst, hafter⟩
    · exact ih (step_isConsistent hc turn) (step_hasDimension hc.idle hdim turn) hafter
        (fun s' hs' => hnumeric s' (List.mem_cons_of_mem _ hs')) s hs

/-- A backward round loses, repeats and moves nothing that its workers have found,
whatever the stores have held before.  In the stores of a model that has been made anew
no two cuts and no two points are ever equal, whatever calls there are. -/
theorem rounds_conserve :
    (∀ (c : Coordinator α) (turn : Turn α), c.IsConsistent → (c.step turn).IsNumeric →
      (c.step turn).IsConserving) ∧
    ∀ (b : Blueprint α) (m : Model α) (pool : Pool) (seed timeout : Value) (turns : List (Turn α)),
      (∀ t, b.transition = .ok (some t) → t.IsRectangular) → b.model = .ok m →
      (∀ s ∈ steps turns (start m pool seed timeout), s.IsNumeric) →
      ∀ s ∈ steps turns (start m pool seed timeout), s.IsConserving ∧ s.after.model.IsDistinct :=
  ⟨fun _ _ hc hnumeric => step_isConserving hc hnumeric,
    fun _ _ pool seed timeout _ hrect hm hnumeric =>
      steps_conserve (start_isConsistent hrect hm pool seed timeout)
        (Blueprint.model_hasDimension hm) (Blueprint.model_isDistinct hm) hnumeric⟩

/-- In the first round, two workers find the same cut twice each; the second round finds
it again. -/
theorem rounds_conserve_valley :
    let _ : Quantiles ℚ := ⟨id, fun level _ => level⟩
    let _ : Seeded ℚ := ⟨fun _ => .cycle 0 []⟩
    let turn : Turn ℚ :=
      ⟨.backward (.int 4) .levelOne fun _ => .ok true, ⟨.thread, 2⟩, [.completes 1, .completes 0]⟩
    let c := start Decisions.valleyModel ⟨.serial, 1⟩ (.int 7) .null
    ((steps [turn, turn] c).map fun s => (s.outcome.isOk,
        s.after.model.stores.flatten.map fun st => (st.cuts.length, st.points.length)))
        = [(true, [(1, 1), (0, 0)]), (true, [(1, 1), (0, 0)])] ∧
      (∃ share seeds grids, (c.step turn).Conserves (.int 4) .levelOne (fun _ => .ok true)
        share seeds grids) ∧
      ∀ s ∈ steps [turn, turn] c, s.IsConserving ∧ s.after.model.IsDistinct := by
  intro _ _ turn c
  have hnumeric : ∀ s : Step ℚ, s.IsNumeric := fun s _ _ _ _ _ _ _ _ _ _ d _ =>
    ⟨fun _ _ a _ => Scalar.isNaN_exact a, fun _ _ a _ => Scalar.isNaN_exact a⟩
  obtain ⟨hround, hrun⟩ := @rounds_conserve ℚ _ _ _
  refine ⟨by decide +kernel, ?_, ?_⟩
  · have hc : c.IsConsistent := start_isConsistent (by rintro t ⟨⟩) Decisions.valley_model _ _ _
    have hok : (c.step turn).outcome.isOk = true := by decide +kernel
    cases houtcome : (c.step turn).outcome with
    | error e =>
      rw [houtcome] at hok
      cases hok
    | ok a => exact hround c turn hc (hnumeric _) _ _ _ a rfl houtcome
  · exact hrun Decisions.valley Decisions.valleyModel _ _ _ _ (by rintro t ⟨⟩)
      Decisions.valley_model fun s _ => hnumeric s

end Runs

end Coordinator

end Multistage
