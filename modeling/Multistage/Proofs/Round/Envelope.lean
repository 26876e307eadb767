/-
Multistage.Proofs.Round.Envelope — the loaded cuts of a worker that selects by votes.

A rebuild loads the cuts that selection by votes picks, which are as good as all cuts at
the sample points of the store (`Store.recount_isLevelOne`).  From then on the store and
the problem of a pair get the same cuts, until the next rebuild.  So what is loaded stays
a part of what is stored, and stays as good at the points that the latest rebuild has
found (`Assignment.levelOne_keepsUp`).
-/
import Multistage.Proofs.Cut.LevelOne
import Multistage.Proofs.Round.Growth
import Multistage.Proofs.Round.Reachable

namespace Multistage

/-! ## Moments of a worker -/

/-- A rebuild of one pair: whether the votes were counted anew, and the store that it
found. -/
structure Rebuild (α : Type) where
  recounts : Bool
  store : Store α

/-- The moments of a worker's own model between operations on single pairs, each with the
latest rebuild of every pair.  A pair is rebuilt, with or without a new count, or it is
given a cut at any state, for any children. -/
inductive Assignment.Reaches {α : Type} [Scalar α] (a : Assignment α) :
    (Nat → Nat → Option (Rebuild α)) → Model α → Prop where
  | own {m : Model α} (h : a.ownModel = .ok m) : Reaches a (fun _ _ => none) m
  | rebuild {latest : Nat → Nat → Option (Rebuild α)} {m m' : Model α} {recount : Bool}
    {t i : Nat} {s : Store α} (h : Reaches a latest m) (hs : m.stores.get? t i = some s)
    (hload : (Model.reloadAt .levelOne recount t i).perform m = (.ok ⟨⟩, m')) :
    Reaches a (fun t' i' => if (t', i') = (t, i) then some ⟨recount, s⟩ else latest t' i') m'
  | add {latest : Nat → Nat → Option (Rebuild α)} {m m' : Model α} {t i n : Nat} {x : Point α}
    {children : List (Child α)} {duals : Tensor α} (h : Reaches a latest m)
    (hduals : Model.stackDuals children = .ok duals)
    (hadd : (Model.addCutAt t x children duals i).perform m = (.ok n, m')) : Reaches a latest m'

/-! ## Whole passes -/

namespace Assignment

section Passes

variable {α β : Type} [Scalar α] {a : Assignment α}
  {latest : Nat → Nat → Option (Rebuild α)} {m m' : Model α}

theorem reloadEach_reaches {recount : Bool} {pairs : List (Nat × Nat)} :
    ∀ {latest : Nat → Nat → Option (Rebuild α)} {m : Model α}, a.Reaches latest m →
      (pairs.forM fun (t, i) => Model.reloadAt .levelOne recount t i).perform m = (.ok ⟨⟩, m') →
        ∃ later, a.Reaches later m' ∧ (∀ e ∈ pairs, later e.1 e.2 ≠ none) ∧
          ∀ t i, latest t i ≠ none → later t i ≠ none := by
  induction pairs with
  | nil =>
    intro latest m h hloop
    cases hloop
    exact ⟨latest, h, by simp, fun _ _ => id⟩
  | cons e pairs ih =>
    intro latest m h hloop
    obtain ⟨t, i⟩ := e
    obtain ⟨_, m₁, hload, hloop⟩ := Transition.perform_bind_eq_ok.mp hloop
    obtain ⟨s, hs, -⟩ := Model.reloadAt_eq_ok.mp hload
    obtain ⟨later, hlater, hpairs, hkept⟩ := ih (h.rebuild hs hload) hloop
    have hnew : later t i ≠ none := hkept t i (by simp)
    refine ⟨later, hlater, List.forall_mem_cons.mpr ⟨hnew, hpairs⟩, fun t' i' hold => ?_⟩
    refine hkept t' i' ?_
    split
    · exact Option.some_ne_none _
    · exact hold

/-- A rebuild of all pairs. -/
theorem reload_reaches {recount : Bool} (h : a.Reaches latest m)
    (hload : (Model.reload .levelOne recount).perform m = (.ok ⟨⟩, m')) :
    ∃ later, a.Reaches later m' ∧
      (∀ e ∈ Grid.pairs m.stageCount m.markovCount, later e.1 e.2 ≠ none) ∧
      ∀ t i, latest t i ≠ none → later t i ≠ none :=
  reloadEach_reaches h hload

theorem mapM_reaches {f : β → Transition (Model α) Nat}
    (hf : ∀ {x m n m'}, a.Reaches latest m → (f x).perform m = (.ok n, m') → a.Reaches latest m')
    {xs : List β} : ∀ {m ns}, a.Reaches latest m → (xs.mapM f).perform m = (.ok ns, m') →
      a.Reaches latest m' := by
  induction xs with
  | nil =>
    intro m ns h hloop
    cases hloop
    exact h
  | cons x xs ih =>
    intro m ns h hloop
    rw [List.mapM_cons] at hloop
    obtain ⟨n, m₁, hx, hloop⟩ := Transition.perform_bind_eq_ok.mp hloop
    obtain ⟨ns', m₂, hxs, hloop⟩ := Transition.perform_bind_eq_ok.mp hloop
    cases hloop
    exact ih (hf h hx) hxs

theorem addStageCuts_reaches {t n : Nat} {x : Point α} (h : a.Reaches latest m)
    (hadd : (Model.addStageCuts t x).perform m = (.ok n, m')) : a.Reaches latest m' := by
  unfold Model.addStageCuts at hadd
  rw [Transition.perform_bind_ok (Transition.perform_get m)] at hadd
  obtain ⟨children, -, hadd⟩ := Transition.outcome_bind_eq_ok.mp hadd
  obtain ⟨duals, hduals, hadd⟩ := Transition.outcome_bind_eq_ok.mp hadd
  rw [Transition.perform_bind_ok (Transition.perform_get m)] at hadd
  obtain ⟨counts, m₁, hcounts, hadd⟩ := Transition.perform_bind_eq_ok.mp hadd
  cases hadd
  exact mapM_reaches (fun h hadd => .add h hduals hadd) h hcounts

/-- A backward pass. -/
theorem backwardPass_reaches {p p' : Play α} {n : Nat} (h : a.Reaches latest p.model)
    (hpass : backwardPass.perform p = (.ok n, p')) : a.Reaches latest p'.model := by
  obtain ⟨path, p₁, hsample, hadd⟩ := Transition.perform_bind_eq_ok.mp hpass
  obtain ⟨draws, -, rfl⟩ := Play.sampling_eq_ok.mp hsample
  obtain ⟨m, hcuts, rfl⟩ := Play.onModel_eq_ok.mp hadd
  obtain ⟨counts, m₁, hcounts, hcuts⟩ := Transition.perform_bind_eq_ok.mp hcuts
  cases hcuts
  exact mapM_reaches addStageCuts_reaches h hcounts

/-- A series of backward passes, with rebuilds whenever they are due. -/
theorem backwardPasses_reaches {due : Nat → Except Failure Bool} {n k : Nat}
    {p p' : Play α} (h : a.Reaches latest p.model)
    (hpasses : (backwardPasses .levelOne due n k).perform p = (.ok ⟨⟩, p')) :
    ∃ later, a.Reaches later p'.model ∧ ∀ t i, latest t i ≠ none → later t i ≠ none := by
  refine backwardPasses_keep (I := fun _ m => ∃ later, a.Reaches later m ∧
    ∀ t i, latest t i ≠ none → later t i ≠ none)
    (fun {j count p₁ p₂} hj hpass => ?_) (fun {j m m'} hj hload => ?_) (j := 0)
    ⟨latest, h, fun _ _ => id⟩ hpasses
  · obtain ⟨later, hlater, hkept⟩ := hj
    exact ⟨later, backwardPass_reaches hlater hpass, hkept⟩
  · obtain ⟨later, hlater, hkept⟩ := hj
    obtain ⟨rebuilt, hrebuilt, -, hkept'⟩ := reload_reaches hlater hload
    exact ⟨rebuilt, hrebuilt, fun t i hold => hkept' t i (hkept t i hold)⟩

end Passes

end Assignment

/-! ## Pairs since their latest rebuild -/

section Invariant

variable {α : Type} [Scalar α]

/-- Whether a pair has been loaded, and since then its store and its problem have got the
same cuts. -/
def Model.HasLoaded (m : Model α) (t i : Nat) (r : Rebuild α) : Prop :=
  ∃ s p chosen added, m.stores.get? t i = some s ∧ m.problems.get? t i = some p ∧
    Selection.levelOne.select (r.store.prepared .levelOne r.recounts m.configuration.sense)
      = .ok chosen ∧
    s.cuts = r.store.cuts ++ added ∧ p.cuts = chosen ++ added

namespace Model

variable {m m' : Model α}

omit [Scalar α] in
theorem alteredAt_problem (m : Model α) (t i : Nat) (s : Store α)
    (change : StageProblem α → StageProblem α) (t' i' : Nat) :
    (m.alteredAt t i s change).problems.get? t' i'
      = (m.problems.get? t' i').map fun p => if (t', i') = (t, i) then change p else p := by
  rw [alteredAt, Grid.get?_mapEntries]

/-- A pair that is rebuilt has been loaded, and nothing else changes. -/
theorem reloadAt_hasLoaded {recount : Bool} {t i : Nat} {s : Store α}
    (hs : m.stores.get? t i = some s)
    (hload : (reloadAt .levelOne recount t i).perform m = (.ok ⟨⟩, m')) :
    m'.HasLoaded t i ⟨recount, s⟩ ∧
      ∀ t' i' r, (t', i') ≠ (t, i) → m.HasLoaded t' i' r → m'.HasLoaded t' i' r := by
  obtain ⟨s₀, hs₀, ⟨p, hp, chosen, hchosen, -⟩, rfl⟩ := reloadAt_eq_ok.mp hload
  cases hs.symm.trans hs₀
  constructor
  · refine ⟨_, { p with cuts := chosen }, chosen, [], Grid.get?_put_self hs, ?_, hchosen, ?_, ?_⟩
    · rw [alteredAt_problem, hp, Option.map_some, if_pos rfl, Selection.chosen_of_select hchosen]
    · rw [Store.prepared_cuts, List.append_nil]
    · exact (List.append_nil chosen).symm
  · rintro t' i' r hother ⟨s', p', chosen', added, hs', hp', hrest⟩
    refine ⟨s', p', chosen', added, ?_, ?_, hrest⟩
    · rw [alteredAt, Grid.get?_put_of_ne hother, hs']
    · rw [alteredAt_problem, hp', Option.map_some, if_neg hother]

/-- What is added to the store of a pair is added to its problem. -/
theorem addCutAt_hasLoaded {t i n : Nat} {x : Point α} {children : List (Child α)}
    {duals : Tensor α} (hduals : stackDuals children = .ok duals)
    (hadd : (addCutAt t x children duals i).perform m = (.ok n, m')) {t' i' : Nat} {r : Rebuild α}
    (h : m.HasLoaded t' i' r) : m'.HasLoaded t' i' r := by
  obtain ⟨gains, hgains, -⟩ := addCutAt_gains hduals hadd
  obtain ⟨s, p, chosen, added, hs, hp, hchosen, hcuts, hloaded⟩ := h
  have hsense : m'.configuration.sense = m.configuration.sense := by
    obtain ⟨buffers, rfl⟩ := hgains.eq
    rfl
  refine ⟨s.gaining (Gain.ofPair gains t' i'), p.gaining (Gain.ofPair gains t' i'), chosen,
    added ++ (Gain.ofPair gains t' i').map Gain.cut, ?_, ?_, ?_, ?_, ?_⟩
  · rw [hgains.get?_stores, hs, Option.map_some]
  · rw [hgains.get?_problems, hp, Option.map_some]
  · rw [hsense, hchosen]
  · rw [Store.gaining_cuts, hcuts, List.append_assoc]
  · rw [StageProblem.gaining, hloaded, List.append_assoc]

end Model

theorem Assignment.reaches_hasLoaded {a : Assignment α}
    {latest : Nat → Nat → Option (Rebuild α)} {m : Model α} (h : a.Reaches latest m) :
    ∀ {t i : Nat} {r : Rebuild α}, latest t i = some r → m.HasLoaded t i r := by
  induction h with
  | own h =>
    intro t i r hr
    cases hr
  | rebuild h hs hload ih =>
    intro t i r hr
    obtain ⟨hnew, hothers⟩ := Model.reloadAt_hasLoaded hs hload
    dsimp only at hr
    split at hr
    · rename_i hsame
      cases hsame
      cases hr
      exact hnew
    · rename_i hother
      exact hothers t i r hother (ih hr)
  | add h hduals hadd ih =>
    intro t i r hr
    exact Model.addCutAt_hasLoaded hduals hadd (ih hr)

end Invariant

/-! ## Loaded cuts -/

section Exact

variable {K : Type} [Field K] [LinearOrder K]

/-- Whether a store has no votes, or votes that select what a new count would. -/
def Store.IsCurrent (sense : Sense) (s : Store K) : Prop :=
  s.votes = none ∨ s.undominated = (s.recount sense).undominated

/-- Whether the loaded cuts of a pair are a part of the stored ones, as good as all of
these at the points that its latest rebuild has found. -/
def Model.KeepsUp (m : Model K) (t i : Nat) (r : Rebuild K) : Prop :=
  ∃ s p, m.stores.get? t i = some s ∧ m.problems.get? t i = some p ∧
    p.cuts.Sublist s.cuts ∧
    ((r.recounts = false → r.store.IsCurrent m.configuration.sense) → ∀ x ∈ r.store.points,
      envelope m.configuration.sense p.cuts x = envelope m.configuration.sense s.cuts x)

theorem Store.isCurrent_of_counted {sense : Sense} {s : Store K}
    (h : s.votes = none ∨ s.votes = some (.counted (s.countVotes sense))) : s.IsCurrent sense := by
  rcases h with hnone | hcounted
  · exact .inl hnone
  · refine .inr ?_
    rw [undominated, undominated, hcounted]
    rfl

/-- What a rebuild picks is as good as all cuts at the points of the store. -/
theorem Store.select_prepared {recounts : Bool} {sense : Sense} {s : Store K}
    (hcurrent : recounts = false → s.IsCurrent sense) {chosen : List (Cut K)}
    (hchosen : Selection.levelOne.select (s.prepared .levelOne recounts sense) = .ok chosen) :
    ∀ x ∈ s.points, envelope sense chosen x = envelope sense s.cuts x := by
  have hrecount : (s.recount sense).undominated = .ok chosen →
      ∀ x ∈ s.points, envelope sense chosen x = envelope sense s.cuts x := by
    intro hselect
    obtain ⟨selected, hselected, hspec⟩ := recount_isLevelOne sense s
    cases hselect.symm.trans hselected
    exact hspec.envelope
  cases recounts with
  | true => exact hrecount hchosen
  | false =>
    have hundominated : s.undominated = .ok chosen := hchosen
    rcases hcurrent rfl with hnone | hsame
    · rw [undominated_of_none hnone] at hundominated
      cases hundominated
      exact fun _ _ => rfl
    · exact hrecount (hsame ▸ hundominated)

theorem Model.HasLoaded.keepsUp {m : Model K} {t i : Nat} {r : Rebuild K}
    (h : m.HasLoaded t i r) : m.KeepsUp t i r := by
  obtain ⟨s, p, chosen, added, hs, hp, hchosen, hcuts, hloaded⟩ := h
  refine ⟨s, p, hs, hp, ?_, fun hcurrent x hx => ?_⟩
  · have hpart := Selection.select_sublist hchosen
    rw [Store.prepared_cuts] at hpart
    rw [hcuts, hloaded]
    exact hpart.append (.refl added)
  · have hbefore := Store.select_prepared hcurrent hchosen x hx
    unfold envelope at hbefore ⊢
    rw [hcuts, hloaded, List.map_append, List.map_append]
    exact Sense.tightest?_append_congr hbefore _

/-- A new count gives every cut the points at which it is the first of the best ones, and
selection by it picks cuts that are as good as all cuts at every point.  While a worker runs
its passes, with rebuilds whenever they are due, the loaded cuts of every pair that has been
rebuilt keep up with the stored ones; from the first rebuild on these are all pairs. -/
theorem Assignment.levelOne_keepsUp :
    (∀ (sense : Sense) (s : Store K),
      (∃ votes selected, (s.recount sense).votes = some (.counted votes) ∧
        Selection.levelOne.select (s.recount sense) = .ok selected ∧
        s.IsLevelOne sense votes selected) ∧
      (s.votes = none ∨ s.votes = some (.counted (s.countVotes sense)) → s.IsCurrent sense)) ∧
    ∀ a : Assignment K,
      (∀ latest m, a.Reaches latest m → ∀ t i r, latest t i = some r → m.KeepsUp t i r) ∧
      ∀ (due : Nat → Except Failure Bool) n m draws p, a.ownModel = .ok m →
        (backwardRun .levelOne due n).perform ⟨m, draws⟩ = (.ok ⟨⟩, p) →
        ∃ latest, a.Reaches latest p.model ∧
          ∀ e ∈ Grid.pairs m.stageCount m.markovCount, latest e.1 e.2 ≠ none := by
  refine ⟨fun sense s => ?_, fun a => ⟨fun latest m h t i r hr => ?_, ?_⟩⟩
  · obtain ⟨selected, hselected, hspec⟩ := Store.recount_isLevelOne sense s
    exact ⟨⟨_, selected, rfl, hselected, hspec⟩, Store.isCurrent_of_counted⟩
  · exact (reaches_hasLoaded h hr).keepsUp
  · intro due n m draws p hown hrun
    obtain ⟨loaded, hreload, hpasses⟩ := backwardRun_eq_ok.mp hrun
    obtain ⟨rebuilt, hrebuilt, hpairs, -⟩ := reload_reaches (.own hown) hreload
    obtain ⟨latest, hlatest, hkept⟩ := backwardPasses_reaches hrebuilt hpasses
    exact ⟨latest, hlatest, fun e he => hkept _ _ (hpairs e he)⟩

/-- Two passes with a rebuild between them: the second cut is loaded beside the one that the
rebuild has picked. -/
theorem Assignment.levelOne_keepsUp_valley :
    let a : Assignment ℚ :=
      ⟨Decisions.valleyModel.configuration, Decisions.valleyModel.stores, 2, .null⟩
    let run : Transition (Play ℚ) Unit := backwardRun .levelOne (fun k => .ok (k == 1)) 2
    let final := (run.perform ⟨Decisions.valleyModel, .cycle 0 []⟩).2.model
    ((final.problems.get? 0 0).map fun p => p.cuts.map fun c => (c.intercept, c.coefficients))
        = some [(0, [7 / 4]), (0, [7 / 4])] ∧
      ∃ latest r, a.Reaches latest final ∧ latest 0 0 = some r ∧ final.KeepsUp 0 0 r := by
  intro a run final
  refine ⟨by decide +kernel, ?_⟩
  have hown : a.ownModel = .ok Decisions.valleyModel := by
    obtain ⟨built, hbuilt⟩ := Blueprint.exists_built (by rintro t ⟨⟩) Decisions.valley_model
    have hvectors : ∀ t i q, Decisions.valleyModel.configuration.scenarios.get? t i = some q →
        ∃ v, q = Tensor.vector v := by
      intro t i q hq
      exact ⟨_, Grid.ofFn_eq_some hq⟩
    have hmade := hbuilt.rebuild_eq hvectors Decisions.valleyModel.configuration.measure.buffers
    exact ownModel_eq_ok.mpr ⟨_, hmade, rfl, rfl⟩
  have hrun : run.perform ⟨Decisions.valleyModel, .cycle 0 []⟩
      = (.ok ⟨⟩, (run.perform ⟨Decisions.valleyModel, .cycle 0 []⟩).2) := by
    have hok : (run.perform ⟨Decisions.valleyModel, .cycle 0 []⟩).1.isOk = true := by
      decide +kernel
    cases hresult : (run.perform ⟨Decisions.valleyModel, .cycle 0 []⟩).1 with
    | ok u => exact Prod.ext hresult rfl
    | error e =>
      rw [hresult] at hok
      cases hok
  obtain ⟨-, hworkers⟩ := @levelOne_keepsUp ℚ _ _
  obtain ⟨hmoments, hfinal⟩ := hworkers a
  obtain ⟨latest, hlatest, hpairs⟩ := hfinal _ 2 _ _ _ hown hrun
  obtain ⟨r, hr⟩ := Option.ne_none_iff_exists'.mp (hpairs (0, 0) (by decide))
  exact ⟨latest, r, hlatest, hr, hmoments latest _ hlatest 0 0 r hr⟩

end Exact

end Multistage
