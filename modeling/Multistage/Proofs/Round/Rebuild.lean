/-
Multistage.Proofs.Round.Rebuild — merging deltas and loading problems, for all
pairs.

Both go through the pairs of stage and Markov state and change one pair at a
time.  What is left of a pair when its turn is over depends on the pair alone, so
the loops have closed forms, `Model.merged` and `Model.loaded`.  A loop that
succeeds leaves the closed form, and it succeeds if the change of every pair
does (`mergeAll_eq_ok`, `reload_eq_ok`).
-/
import Multistage.Proofs.Grid
import Multistage.Proofs.Stage.Problem
import Multistage.Proofs.Transition
import Multistage.Policy.Bound
import Multistage.Round.Merge

namespace Multistage

variable {α β : Type}

/-! ## Parts of a model -/

namespace Model

theorem onStore_eq_ok {t i : Nat} {op : Transition (Store α) β} {m m' : Model α} {b : β} :
    (onStore t i op).perform m = (.ok b, m') ↔ ∃ s s', m.stores.get? t i = some s ∧
      op.perform s = (.ok b, s') ∧ m' = { m with stores := m.stores.put t i s' } := by
  unfold onStore
  rw [Transition.perform_of]
  cases m.stores.get? t i with
  | none => simp
  | some s =>
    constructor
    · intro h
      obtain ⟨hb, rfl⟩ := Prod.mk.inj h
      exact ⟨s, _, rfl, Prod.ext hb rfl, rfl⟩
    · rintro ⟨s, s', ⟨⟩, h, rfl⟩
      dsimp only
      rw [h]

theorem onProblem_eq_ok {t i : Nat} {change : StageProblem α → Except Failure (StageProblem α)}
    {m m' : Model α} : (onProblem t i change).perform m = (.ok (), m') ↔
      ∃ p p', m.problems.get? t i = some p ∧ change p = .ok p' ∧
        m' = { m with problems := m.problems.put t i p' } := by
  unfold onProblem
  rw [Transition.perform_of]
  cases m.problems.get? t i with
  | none => simp
  | some p =>
    dsimp only
    cases hchange : change p with
    | error e => simp [hchange]
    | ok p' =>
      constructor
      · intro h
        exact ⟨p, p', rfl, hchange, (Prod.mk.inj h).2.symm⟩
      · rintro ⟨p, p', ⟨⟩, h, rfl⟩
        rw [hchange] at h
        cases h
        rfl

end Model

/-! ## Changes pair by pair -/

namespace Model

/-- The model with another store and a changed problem at one pair. -/
def alteredAt (m : Model α) (t i : Nat) (s : Store α)
    (change : StageProblem α → StageProblem α) : Model α :=
  { m with
    stores := m.stores.put t i s
    problems := m.problems.mapEntries fun t' i' p => if (t', i') = (t, i) then change p else p }

/-- The model with the store and the problem of every pair changed; what becomes of
the problem may depend on the store. -/
def altered (m : Model α) (store : Nat → Nat → Store α → Store α)
    (problem : Nat → Nat → Store α → StageProblem α → StageProblem α) : Model α :=
  { m with
    stores := m.stores.mapEntries store
    problems := m.problems.mapEntries fun t i p =>
      ((m.stores.get? t i).map fun s => problem t i s p).getD p }

/-- Where a pair has a problem, both entries of the pair are replaced. -/
theorem alteredAt_eq_puts {m : Model α} {t i : Nat} {p : StageProblem α}
    (hp : m.problems.get? t i = some p) {s : Store α} {change : StageProblem α → StageProblem α} :
    m.alteredAt t i s change
      = { m with
          stores := m.stores.put t i s
          problems := m.problems.put t i (change p) } := by
  unfold alteredAt
  congr 1
  rw [Grid.put_eq_mapEntries]
  refine Grid.mapEntries_congr fun t' i' p' hp' => ?_
  split
  · rename_i heq
    cases heq
    rw [Option.some.inj (hp.symm.trans hp')]
  · rfl

theorem alteredAt_store (m : Model α) (t i : Nat) (s : Store α) :
    m.alteredAt t i s (fun p => p) = { m with stores := m.stores.put t i s } := by
  simp [alteredAt]

theorem altered_stores (m : Model α) (store : Nat → Nat → Store α → Store α) :
    m.altered store (fun _ _ _ p => p) = { m with stores := m.stores.mapEntries store } := by
  have hsame : ∀ (s : Option (Store α)) (p : StageProblem α), (s.map fun _ => p).getD p = p := by
    rintro (_ | s) p <;> rfl
  simp [altered, hsame]

variable {store : Nat → Nat → Store α → Store α}
  {problem : Nat → Nat → Store α → StageProblem α → StageProblem α}

/-- The model with the store and the problem changed at the pairs that are done. -/
def alteredOn (m : Model α) (done : List (Nat × Nat)) (store : Nat → Nat → Store α → Store α)
    (problem : Nat → Nat → Store α → StageProblem α → StageProblem α) : Model α :=
  m.altered (fun t i s => if done.contains (t, i) then store t i s else s)
    fun t i s p => if done.contains (t, i) then problem t i s p else p

theorem alteredOn_nil (m : Model α) : m.alteredOn [] store problem = m := by
  simp [alteredOn, altered_stores]

section AlteredOn

variable {m : Model α} {done : List (Nat × Nat)} {t i : Nat}

theorem get?_alteredOn_stores (h : (t, i) ∉ done) :
    (m.alteredOn done store problem).stores.get? t i = m.stores.get? t i := by
  simp [alteredOn, altered, h]

theorem get?_alteredOn_problems (h : (t, i) ∉ done) :
    (m.alteredOn done store problem).problems.get? t i = m.problems.get? t i := by
  cases hp : m.problems.get? t i with
  | none => simp [alteredOn, altered, hp]
  | some p =>
    cases hs : m.stores.get? t i with
    | none => simp [alteredOn, altered, hp, hs]
    | some s => simp [alteredOn, altered, hp, hs, h]

/-- One more pair is done. -/
theorem alteredOn_alteredAt (h : (t, i) ∉ done) {s : Store α}
    (hs : m.stores.get? t i = some s) :
    (m.alteredOn done store problem).alteredAt t i (store t i s) (problem t i s)
      = m.alteredOn (done ++ [(t, i)]) store problem := by
  unfold alteredAt
  simp only [alteredOn, altered, Grid.put_mapEntries, Grid.mapEntries_mapEntries]
  congr 1
  · refine Grid.mapEntries_congr fun t' i' p hp => ?_
    by_cases hsame : (t', i') = (t, i)
    · cases hsame
      simp [hs, h]
    · simp [hsame]
  · refine Grid.mapEntries_congr fun t' i' s' hs' => ?_
    by_cases hsame : (t', i') = (t, i)
    · cases hsame
      cases hs.symm.trans hs'
      simp
    · simp [hsame]

/-- All pairs that have a store are done. -/
theorem alteredOn_eq_altered (h : ∀ t i s, m.stores.get? t i = some s → (t, i) ∈ done) :
    m.alteredOn done store problem = m.altered store problem := by
  unfold alteredOn altered
  congr 1
  · refine Grid.mapEntries_congr fun t i p _ => ?_
    cases hs : m.stores.get? t i with
    | none => rfl
    | some s => exact if_pos (List.contains_iff_mem.mpr (h t i s hs))
  · exact Grid.mapEntries_congr fun t i s hs => if_pos (List.contains_iff_mem.mpr (h t i s hs))

end AlteredOn

/-- A loop over all pairs, each of which succeeds under a condition on the pair and
changes nothing but the pair. -/
theorem forM_pairs_eq_ok {f : Nat × Nat → Transition (Model α) PUnit}
    {C : Nat → Nat → Store α → Option (StageProblem α) → Prop} {m m' : Model α}
    (hfits : m.stores.fits m.stageCount m.markovCount = true)
    (hf : ∀ t i (m₁ m' : Model α), m₁.configuration = m.configuration →
      ((f (t, i)).perform m₁ = (.ok ⟨⟩, m') ↔ ∃ s, m₁.stores.get? t i = some s ∧
        C t i s (m₁.problems.get? t i) ∧
        m' = m₁.alteredAt t i (store t i s) (problem t i s))) :
    ((Grid.pairs m.stageCount m.markovCount).forM f).perform m = (.ok ⟨⟩, m') ↔
      (∀ t i s, m.stores.get? t i = some s → C t i s (m.problems.get? t i)) ∧
      m' = m.altered store problem := by
  have hall : ∀ t i, (t, i) ∈ Grid.pairs m.stageCount m.markovCount
      ↔ ∃ s, m.stores.get? t i = some s := by
    intro t i
    rw [Grid.mem_pairs, Grid.get?_isSome hfits]
  let P (e : Nat × Nat) : Prop := ∃ s, m.stores.get? e.1 e.2 = some s ∧
    C e.1 e.2 s (m.problems.get? e.1 e.2)
  have hstep : ∀ done e rest, Grid.pairs m.stageCount m.markovCount = done ++ e :: rest → ∀ m',
      (f e).perform (m.alteredOn done store problem) = (.ok ⟨⟩, m')
        ↔ P e ∧ m' = m.alteredOn (done ++ [e]) store problem := by
    rintro done ⟨t, i⟩ rest hpairs m'
    have hnotin : (t, i) ∉ done := by
      have hnodup := Grid.nodup_pairs m.stageCount m.markovCount
      rw [hpairs, List.nodup_append] at hnodup
      exact fun hmem => hnodup.2.2 _ hmem _ (by simp) rfl
    rw [hf t i (m.alteredOn done store problem) m' rfl, get?_alteredOn_stores hnotin,
      get?_alteredOn_problems hnotin]
    constructor
    · rintro ⟨s, hs, hcond, rfl⟩
      exact ⟨⟨s, hs, hcond⟩, alteredOn_alteredAt hnotin hs⟩
    · rintro ⟨⟨s, hs, hcond⟩, rfl⟩
      exact ⟨s, hs, hcond, (alteredOn_alteredAt hnotin hs).symm⟩
  have hloop := Transition.forM_perform_eq_ok hstep m'
  rw [alteredOn_nil, alteredOn_eq_altered fun t i s hs => (hall t i).mpr ⟨s, hs⟩] at hloop
  refine hloop.trans (and_congr ?_ Iff.rfl)
  constructor
  · intro h t i s hs
    obtain ⟨s', hs', hcond⟩ := h (t, i) ((hall t i).mpr ⟨s, hs⟩)
    cases hs.symm.trans hs'
    exact hcond
  · rintro h ⟨t, i⟩ hmem
    obtain ⟨s, hs⟩ := (hall t i).mp hmem
    exact ⟨s, hs, h t i s hs⟩

end Model

/-! ## Merging -/

namespace Store

theorem checkPoint_eq_ok {s : Store α} {p : Point α} {u : Unit} :
    s.checkPoint p = .ok u ↔ (p.length : Int) = s.stateCount := by
  unfold checkPoint
  split
  · rename_i h
    exact iff_of_true rfl h
  · rename_i h
    exact iff_of_false nofun h

theorem checkCut_eq_ok {s : Store α} {c : Cut α} {u : Unit} :
    s.checkCut c = .ok u ↔ (c.coefficients.length : Int) = s.stateCount := by
  unfold checkCut
  split
  · rename_i h
    exact iff_of_true rfl h
  · rename_i h
    exact iff_of_false nofun h

end Store

/-- Whether the items of a delta have a dimension. -/
structure Delta.HasDimension (d : Delta α) (n : Int) : Prop where
  points : ∀ p ∈ d.points, (p.length : Int) = n
  cuts : ∀ c ∈ d.cuts, (c.coefficients.length : Int) = n

namespace Store

theorem checkDeltas_eq_ok {s : Store α} {deltas : List (Delta α)} :
    s.checkDeltas deltas = .ok () ↔ ∀ d ∈ deltas, d.HasDimension s.stateCount := by
  unfold checkDeltas
  rw [forM_eq_ok]
  refine forall₂_congr fun d _ => ?_
  rw [bind_eq_ok]
  constructor
  · rintro ⟨_, hpoints, hcuts⟩
    exact ⟨fun p hp => checkPoint_eq_ok.mp (forM_eq_ok.mp hpoints p hp),
      fun c hc => checkCut_eq_ok.mp (forM_eq_ok.mp hcuts c hc)⟩
  · rintro ⟨hpoints, hcuts⟩
    exact ⟨(), forM_eq_ok.mpr fun p hp => checkPoint_eq_ok.mpr (hpoints p hp),
      forM_eq_ok.mpr fun c hc => checkCut_eq_ok.mpr (hcuts c hc)⟩

variable [Scalar α]

/-- A store with deltas joined into it and its votes counted anew. -/
def joined (sense : Sense) (s : Store α) (deltas : List (Delta α)) : Store α :=
  recount sense
    { s with points := s.points ++ s.newPoints deltas, cuts := s.cuts ++ s.newCuts deltas }

/-- Merging into a store succeeds exactly if all items of the deltas have its
dimension. -/
theorem merge_eq_ok {sense : Sense} {s s' : Store α} {deltas : List (Delta α)} {changed : Bool} :
    (do
        let changed ← Store.merge deltas
        modify (Store.recount sense)
        return changed : Transition (Store α) Bool).perform s = (.ok changed, s')
      ↔ (∀ d ∈ deltas, d.HasDimension s.stateCount) ∧
          changed = (!(s.newPoints deltas).isEmpty || !(s.newCuts deltas).isEmpty) ∧
          s' = s.joined sense deltas := by
  rw [← checkDeltas_eq_ok]
  unfold merge
  simp only [Transition.perform_bind, Transition.perform_get, Transition.perform_outcome,
    Transition.perform_set, Transition.perform_pure, Transition.perform_modify]
  cases s.checkDeltas deltas with
  | error e => simp
  | ok u =>
    constructor
    · intro h
      obtain ⟨hchanged, rfl⟩ := Prod.mk.inj h
      exact ⟨rfl, (Except.ok.inj hchanged).symm, rfl⟩
    · rintro ⟨-, rfl, rfl⟩
      rfl

end Store

/-- The deltas of a pair. -/
def Grid.deltasAt (grids : List (Grid (Delta α))) (t i : Nat) : List (Delta α) :=
  grids.filterMap fun g => g.get? t i

theorem Grid.entries_eq_ok {grids : List (Grid (Delta α))} {t i : Nat} {deltas : List (Delta α)} :
    grids.mapM (fun g => g.entry t i) = .ok deltas
      ↔ (∀ g ∈ grids, ∃ d, g.get? t i = some d) ∧ deltas = Grid.deltasAt grids t i := by
  rw [mapM_eq_ok]
  simp only [Grid.entry_eq_ok]
  constructor
  · intro h
    induction h with
    | nil => exact ⟨by simp, rfl⟩
    | cons hd _ ih =>
      obtain ⟨hentries, rfl⟩ := ih
      exact ⟨List.forall_mem_cons.mpr ⟨⟨_, hd⟩, hentries⟩, by simp [Grid.deltasAt, hd]⟩
  · rintro ⟨hentries, rfl⟩
    induction grids with
    | nil => exact .nil
    | cons g grids ih =>
      obtain ⟨⟨d, hd⟩, hentries⟩ := List.forall_mem_cons.mp hentries
      have htail := ih hentries
      simp only [Grid.deltasAt, List.filterMap_cons, hd]
      exact .cons hd htail

namespace Model

section Merge

variable [Scalar α]

/-- A model with deltas merged into all of its stores. -/
def merged (grids : List (Grid (Delta α))) (m : Model α) : Model α :=
  { m with
    stores := m.stores.mapEntries fun t i s =>
      s.joined m.configuration.sense (Grid.deltasAt grids t i) }

theorem mergeAt_eq_ok {t i : Nat} {deltas : List (Delta α)} {m m' : Model α} {changed : Bool} :
    (mergeAt t i deltas).perform m = (.ok changed, m') ↔ ∃ s, m.stores.get? t i = some s ∧
      (∀ d ∈ deltas, d.HasDimension s.stateCount) ∧
      changed = (!(s.newPoints deltas).isEmpty || !(s.newCuts deltas).isEmpty) ∧
      m' = { m with stores := m.stores.put t i (s.joined m.configuration.sense deltas) } := by
  unfold mergeAt
  rw [Transition.perform_bind_ok (Transition.perform_get m), onStore_eq_ok]
  constructor
  · rintro ⟨s, s', hs, hmerge, rfl⟩
    obtain ⟨hdeltas, hchanged, rfl⟩ := Store.merge_eq_ok.mp hmerge
    exact ⟨s, hs, hdeltas, hchanged, rfl⟩
  · rintro ⟨s, hs, hdeltas, hchanged, rfl⟩
    exact ⟨s, _, hs, Store.merge_eq_ok.mpr ⟨hdeltas, hchanged, rfl⟩, rfl⟩

/-- Whether there are deltas for every pair, all of them of the dimension of its
store. -/
def IsMergeable (grids : List (Grid (Delta α))) (m : Model α) : Prop :=
  ∀ t i s, m.stores.get? t i = some s → (∀ g ∈ grids, ∃ d, g.get? t i = some d) ∧
    ∀ d ∈ Grid.deltasAt grids t i, d.HasDimension s.stateCount

/-- Merging succeeds exactly if the deltas fit the stores. -/
theorem mergeAll_eq_ok {grids : List (Grid (Delta α))} {m m' : Model α}
    (hfits : m.stores.fits m.stageCount m.markovCount = true) :
    (mergeAll grids).perform m = (.ok ⟨⟩, m') ↔ m.IsMergeable grids ∧ m' = m.merged grids := by
  unfold merged
  rw [← altered_stores]
  refine forM_pairs_eq_ok (C := fun t i s _ => (∀ g ∈ grids, ∃ d, g.get? t i = some d) ∧
    ∀ d ∈ Grid.deltasAt grids t i, d.HasDimension s.stateCount) hfits fun t i m₁ m' hm₁ => ?_
  rw [Transition.perform_bind_eq_ok, ← hm₁]
  simp only [Transition.outcome_eq_ok, Transition.perform_discard_eq_ok, mergeAt_eq_ok,
    Grid.entries_eq_ok, alteredAt_store]
  constructor
  · rintro ⟨_, _, ⟨⟨hentries, rfl⟩, rfl⟩, _, s, hs, hdim, -, rfl⟩
    exact ⟨s, hs, ⟨hentries, hdim⟩, rfl⟩
  · rintro ⟨s, hs, ⟨hentries, hdim⟩, rfl⟩
    exact ⟨_, _, ⟨⟨hentries, rfl⟩, rfl⟩, _, s, hs, hdim, rfl, rfl⟩

end Merge

end Model

/-! ## Loading -/

namespace Selection

/-- The cuts that a selection picks; none where it fails. -/
def chosen (selection : Selection) (s : Store α) : List (Cut α) :=
  match selection.select s with
  | .ok cuts => cuts
  | .error _ => []

theorem chosen_of_select {selection : Selection} {s : Store α} {cuts : List (Cut α)}
    (h : selection.select s = .ok cuts) : selection.chosen s = cuts := by
  rw [chosen, h]

end Selection

namespace Store

variable [Scalar α]

/-- A store as a selection looks at it: with a new count of votes if one is asked
for and needed. -/
def prepared (selection : Selection) (recount : Bool) (sense : Sense) (s : Store α) : Store α :=
  if recount && selection.needsVotes then s.recount sense else s

@[simp] theorem prepared_cuts (selection : Selection) (recount : Bool) (sense : Sense)
    (s : Store α) : (s.prepared selection recount sense).cuts = s.cuts := by
  unfold prepared
  split <;> rfl

@[simp] theorem prepared_false (selection : Selection) (sense : Sense) (s : Store α) :
    s.prepared selection false sense = s :=
  rfl

/-- With a count of its votes, every selection picks cuts of a store. -/
theorem select_recount (selection : Selection) (sense : Sense) (s : Store α) :
    ∃ cuts, selection.select (s.recount sense) = .ok cuts := by
  cases selection with
  | all => exact ⟨_, rfl⟩
  | levelOne =>
    cases hpoints : s.points with
    | nil => exact ⟨s.cuts, by simp [Selection.select, undominated, recount, hpoints]⟩
    | cons p points =>
      exact ⟨s.winners (s.countVotes sense), by
        simp [Selection.select, undominated, recount, hpoints, winners]⟩

end Store

namespace Model

section Load

variable [Scalar α]

/-- A model with all problems loaded with the cuts that a selection picks. -/
def loaded (selection : Selection) (recount : Bool) (m : Model α) : Model α :=
  m.altered (fun _ _ s => s.prepared selection recount m.configuration.sense) fun _ _ s p =>
    { p with cuts := selection.chosen (s.prepared selection recount m.configuration.sense) }

/-- Whether a selection picks cuts of a store that a problem takes. -/
def IsLoadable (selection : Selection) (s : Store α) (p : StageProblem α) : Prop :=
  ∃ cuts, selection.select s = .ok cuts ∧ ∀ c ∈ cuts, (c.stateCount : Int) = p.stateCount

omit [Scalar α] in
theorem loadAt_eq_ok {selection : Selection} {t i : Nat} {m m' : Model α} :
    (do
        let store ← Transition.outcome ((← get).stores.entry t i)
        let cuts ← Transition.outcome (selection.select store)
        onProblem t i fun p => p.setCuts cuts : Transition (Model α) Unit).perform m
          = (.ok (), m') ↔
      ∃ s p, m.stores.get? t i = some s ∧ m.problems.get? t i = some p ∧
        IsLoadable selection s p ∧
        m' = { m with
          problems := m.problems.put t i { p with cuts := selection.chosen s } } := by
  simp only [Transition.perform_bind_eq_ok, Transition.perform_get, Transition.outcome_eq_ok,
    onProblem_eq_ok, StageProblem.setCuts_eq_ok, Grid.entry_eq_ok]
  constructor
  · rintro ⟨_, _, ⟨⟩, s, _, ⟨hs, rfl⟩, cuts, _, ⟨hcuts, rfl⟩, p, _, hp, ⟨hdim, rfl⟩, rfl⟩
    exact ⟨s, p, hs, hp, ⟨cuts, hcuts, hdim⟩, by rw [Selection.chosen_of_select hcuts]⟩
  · rintro ⟨s, p, hs, hp, ⟨cuts, hcuts, hdim⟩, rfl⟩
    rw [Selection.chosen_of_select hcuts]
    exact ⟨_, _, rfl, s, _, ⟨hs, rfl⟩, cuts, _, ⟨hcuts, rfl⟩, p, _, hp, ⟨hdim, rfl⟩, rfl⟩

theorem reloadAt_eq_ok {selection : Selection} {recount : Bool} {t i : Nat} {m m' : Model α} :
    (reloadAt selection recount t i).perform m = (.ok ⟨⟩, m') ↔
      ∃ s, m.stores.get? t i = some s ∧
        (∃ p, m.problems.get? t i = some p ∧
          IsLoadable selection (s.prepared selection recount m.configuration.sense) p) ∧
        m' = m.alteredAt t i (s.prepared selection recount m.configuration.sense) fun p =>
          { p with
            cuts := selection.chosen (s.prepared selection recount m.configuration.sense) } := by
  unfold reloadAt
  rw [Transition.perform_bind, Transition.perform_get]
  dsimp only
  unfold Store.prepared
  by_cases hcount : (recount && selection.needsVotes) = true
  · simp only [hcount, if_true]
    rw [Transition.perform_bind_eq_ok]
    simp only [onStore_eq_ok, Transition.perform_modify]
    constructor
    · rintro ⟨_, _, ⟨s, _, hs, ⟨⟩, rfl⟩, hload⟩
      obtain ⟨s', p, hs', hp, hloadable, rfl⟩ := loadAt_eq_ok.mp hload
      cases (Grid.get?_put_self hs).symm.trans hs'
      refine ⟨s, hs, ⟨p, hp, hloadable⟩, ?_⟩
      rw [alteredAt_eq_puts (m := m) hp]
    · rintro ⟨s, hs, ⟨p, hp, hloadable⟩, rfl⟩
      rw [alteredAt_eq_puts hp]
      exact ⟨_, _, ⟨s, _, hs, rfl, rfl⟩,
        loadAt_eq_ok.mpr ⟨_, p, Grid.get?_put_self hs, hp, hloadable, rfl⟩⟩
  · simp only [Bool.not_eq_true] at hcount
    simp only [hcount, Bool.false_eq_true, if_false]
    refine loadAt_eq_ok.trans ⟨?_, ?_⟩
    · rintro ⟨s, p, hs, hp, hloadable, rfl⟩
      refine ⟨s, hs, ⟨p, hp, hloadable⟩, ?_⟩
      rw [alteredAt_eq_puts hp, Grid.put_self hs]
    · rintro ⟨s, hs, ⟨p, hp, hloadable⟩, rfl⟩
      refine ⟨s, p, hs, hp, hloadable, ?_⟩
      rw [alteredAt_eq_puts hp, Grid.put_self hs]

/-- Loading succeeds exactly if the selection picks cuts of every store, and the
problem of the pair takes them. -/
theorem reload_eq_ok {selection : Selection} {recount : Bool} {m m' : Model α}
    (hfits : m.stores.fits m.stageCount m.markovCount = true) :
    (reload selection recount).perform m = (.ok ⟨⟩, m') ↔
      (∀ t i s, m.stores.get? t i = some s → ∃ p, m.problems.get? t i = some p ∧
        IsLoadable selection (s.prepared selection recount m.configuration.sense) p) ∧
      m' = m.loaded selection recount := by
  refine forM_pairs_eq_ok (C := fun _ _ s problem => ∃ p, problem = some p ∧
    IsLoadable selection (s.prepared selection recount m.configuration.sense) p) hfits
    fun t i m₁ m' hm₁ => ?_
  rw [← hm₁]
  exact reloadAt_eq_ok

end Load

end Model

end Multistage
