/-
Multistage.Proofs.Round.Soundness — rounds keep cuts and bounds valid.

A worker rebuilds the model from its configuration and works on a copy of the
stores, so its own model is sound when the model of the coordinator is, and
remains so along its passes; the cuts that it hands back are cuts of its
stores.  Merging only adds cuts that a worker has handed back.  A round is
therefore sound for every schedule, for every number of workers, and also when
it fails.
-/
import Multistage.Proofs.Cut.Join
import Multistage.Proofs.Policy.Bound
import Multistage.Proofs.Round.Calls
import Multistage.Proofs.Round.Growth

namespace Multistage

/-! ## Stores -/

namespace Store

variable {α : Type}

theorem mem_of_sliceFrom {β : Type} {k : Int} {xs : List β} {x : β} (h : x ∈ sliceFrom k xs) :
    x ∈ xs := by
  unfold sliceFrom at h
  split at h
  · exact List.mem_of_mem_drop h
  · exact List.mem_of_mem_drop h

theorem mem_of_deltaSince {s : Store α} {i j : Int} {c : Cut α} (h : c ∈ (s.deltaSince i j).cuts) :
    c ∈ s.cuts :=
  mem_of_sliceFrom h

/-- Every cut that merging adds is a cut of a delta. -/
theorem mem_of_newCuts [Scalar α] {s : Store α} {deltas : List (Delta α)} {c : Cut α}
    (h : c ∈ s.newCuts deltas) : ∃ d ∈ deltas, c ∈ d.cuts := by
  unfold newCuts sortByKey at h
  rcases mem_of_newItems (List.mem_mergeSort.mp h) with h | h
  · exact absurd h List.not_mem_nil
  · exact List.mem_flatMap.mp h

theorem merge_sound [Scalar α] {P : Cut α → Prop} {deltas : List (Delta α)}
    (h : ∀ d ∈ deltas, ∀ c ∈ d.cuts, P c) :
    Transition.Ensures (fun s => ∀ c ∈ s.cuts, P c) (Store.merge deltas) fun _ => True := by
  refine Transition.Ensures.get.bind fun s hs => ?_
  refine (Transition.Ensures.outcome fun _ _ => True.intro).bind fun _ _ => ?_
  refine (Transition.Ensures.set fun c hc => ?_).bind fun _ _ => Transition.Ensures.pure True.intro
  rcases List.mem_append.mp hc with hc | hc
  · exact hs c hc
  · obtain ⟨d, hd, hc⟩ := mem_of_newCuts hc
    exact h d hd c hc

end Store

namespace Decisions

variable {K : Type} [Field K] [LinearOrder K] (D : Decisions K) (m₀ : Model K)

/-! ## Merging -/

/-- Deltas by pair whose cuts are valid. -/
def AreValid (g : Grid (Delta K)) : Prop :=
  ∀ t i d, g.get? t i = some d → ∀ c ∈ d.cuts, D.IsValidCut m₀ t i c

variable {D m₀}

theorem mergeAt_sound {t i : Nat} {deltas : List (Delta K)}
    (h : ∀ d ∈ deltas, ∀ c ∈ d.cuts, D.IsValidCut m₀ t i c) :
    Transition.Ensures (D.IsSound m₀) (Model.mergeAt t i deltas) fun _ => True := by
  unfold Model.mergeAt
  refine Transition.Ensures.get.bind fun m _ => onStore_sound ?_
  have hrecount : Transition.Ensures (fun s : Store K => ∀ c ∈ s.cuts, D.IsValidCut m₀ t i c)
      (modify (Store.recount m.configuration.sense)) fun _ => True :=
    Transition.Ensures.modify fun s hs => hs
  refine (Store.merge_sound h).bind fun _ _ => hrecount.bind fun _ _ => ?_
  exact Transition.Ensures.pure True.intro

/-- Merging adds valid cuts if all deltas hold valid cuts. -/
theorem mergeAll_sound {grids : List (Grid (Delta K))} (h : ∀ g ∈ grids, D.AreValid m₀ g) :
    Transition.Ensures (D.IsSound m₀) (Model.mergeAll grids) fun _ => True := by
  unfold Model.mergeAll
  refine Transition.Ensures.get.bind fun m _ => ?_
  refine Transition.Ensures.forM fun e _ => ?_
  refine (Transition.Ensures.outcome fun deltas hdeltas d hd => ?_).bind fun deltas hdeltas =>
    (mergeAt_sound hdeltas).discard
  obtain ⟨k, hk, rfl⟩ := List.getElem_of_mem hd
  have hentries := mapM_eq_ok.mp hdeltas
  have hentry := hentries.get (hentries.length_eq ▸ hk) hk
  exact h _ (List.getElem_mem _) e.1 e.2 _ (Grid.entry_eq_ok.mp hentry)

/-! ## Made models -/

variable (D m₀) in
/-- Whether a coordinator works on a sound model and hands out its data. -/
def IsRun (c : Coordinator K) : Prop :=
  D.IsSound m₀ c.model ∧ ∃ buffers, c.snapshot = m₀.configuration.withBuffers buffers

section Workers

variable {built : Grid (StageProblem K)} (hm₀ : m₀.IsMadeOf built) (hs : m₀.IsStochastic)
  (hD : D.Describes m₀)

include hm₀ hD in
/-- A model as it has been made is sound, with any scratch buffers and with any
stores of valid cuts. -/
theorem made_sound (buffers : Buffers K) {stores : Grid (Store K)}
    (hstores : ∀ t i s, stores.get? t i = some s → ∀ c ∈ s.cuts, D.IsValidCut m₀ t i c) :
    D.IsSound m₀ { m₀ with configuration := m₀.configuration.withBuffers buffers, stores } where
  configuration := ⟨buffers, rfl⟩
  stored := hstores
  problems := fun t i p hp => ⟨p, p.cuts, hp, rfl, hD.cuts t i p hp⟩
  firstStage := .inl hm₀.firstStage
  bound := by
    intro b hb
    rw [hm₀.figures] at hb
    cases hb

include hm₀ hD in
/-- A coordinator starts with a sound model. -/
theorem start_run (pool : Pool) (seed timeout : Value) :
    D.IsRun m₀ (.start m₀ pool seed timeout) := by
  have hstores : ∀ t i s, m₀.stores.get? t i = some s → ∀ c ∈ s.cuts, D.IsValidCut m₀ t i c := by
    intro t i s hs c hc
    rw [hm₀.store_cuts hs] at hc
    exact absurd hc List.not_mem_nil
  exact ⟨made_sound hm₀ hD m₀.configuration.measure.buffers hstores, _, rfl⟩

include hm₀ hs hD

/-- A worker's own model is sound, if what it is given comes from a sound
model. -/
theorem ownModel_sound {a : Assignment K}
    (hsnapshot : ∃ buffers, a.snapshot = m₀.configuration.withBuffers buffers)
    (hstores : ∀ t i s, a.stores.get? t i = some s → ∀ c ∈ s.cuts, D.IsValidCut m₀ t i c)
    {m : Model K} (h : a.ownModel = .ok m) : D.IsSound m₀ m ∧ m.stores = a.stores := by
  obtain ⟨buffers, hbuffers⟩ := hsnapshot
  have hvectors : ∀ t i q, m₀.configuration.scenarios.get? t i = some q →
      ∃ v, q = Tensor.vector v := by
    intro t i q hq
    obtain ⟨v, hv, -⟩ := hs.scenarios t i q hq
    exact ⟨v, hv⟩
  obtain ⟨made, hmade, -, rfl⟩ := Assignment.ownModel_eq_ok.mp h
  rw [hbuffers, hm₀.rebuild_eq hvectors] at hmade
  cases hmade
  exact ⟨made_sound hm₀ hD buffers hstores, rfl⟩

variable [IsStrictOrderedRing K]

theorem backwardPasses_sound (selection : Selection) (due : Nat → Except Failure Bool) (n : Nat) :
    ∀ k, Transition.Ensures (fun p : Play K => D.IsSound m₀ p.model)
      (Assignment.backwardPasses selection due n k) fun _ => True := by
  induction n with
  | zero => exact fun k => Transition.Ensures.pure True.intro
  | succ n ih =>
    intro k
    unfold Assignment.backwardPasses
    refine (backwardPass_sound hm₀ hs hD).discard.bind fun _ _ => ?_
    refine (Transition.Ensures.outcome fun _ _ => True.intro).bind fun isDue _ => ?_
    split
    · exact (Play.onModel_ensures (reload_sound selection true)).bind fun _ _ => ih (k + 1)
    · exact ih (k + 1)

theorem backwardRun_sound (selection : Selection) (due : Nat → Except Failure Bool) (n : Nat) :
    Transition.Ensures (fun p : Play K => D.IsSound m₀ p.model)
      (Assignment.backwardRun selection due n) fun _ => True := by
  unfold Assignment.backwardRun
  refine (Play.onModel_ensures (reload_sound selection false)).bind fun _ _ => ?_
  exact backwardPasses_sound hm₀ hs hD selection due n 1

/-- The cuts that a worker hands back are valid. -/
theorem backward_sound [Seeded K] {a : Assignment K}
    (hsnapshot : ∃ buffers, a.snapshot = m₀.configuration.withBuffers buffers)
    (hstores : ∀ t i s, a.stores.get? t i = some s → ∀ c ∈ s.cuts, D.IsValidCut m₀ t i c)
    {selection : Selection} {due : Nat → Except Failure Bool} {g : Grid (Delta K)}
    (h : a.backward selection due = .ok g) : D.AreValid m₀ g := by
  obtain ⟨final, hfinal, hdeltas⟩ := bind_eq_ok.mp h
  cases pure_eq_ok.mp hdeltas
  obtain ⟨own, draws, last, hown, -, hrun, rfl⟩ := Assignment.finalModel_eq_ok.mp hfinal
  obtain ⟨hsound, -⟩ := ownModel_sound hm₀ hs hD hsnapshot hstores hown
  obtain ⟨hlast, -⟩ := backwardRun_sound hm₀ hs hD selection due a.passes.toNat ⟨own, draws⟩ hsound
  rw [hrun] at hlast
  intro t i d hd c hc
  obtain ⟨row, hrow, hd⟩ := Grid.get?_eq_some.mp hd
  obtain ⟨before, after, -, hafter, rfl⟩ := List.getElem?_zipWith_eq_some.mp hrow
  obtain ⟨s, s', -, hs', rfl⟩ := List.getElem?_zipWith_eq_some.mp hd
  exact hlast.stored t i s' (Grid.get?_eq_some.mpr ⟨after, hafter, hs'⟩) c
    (Store.mem_of_deltaSince hc)

end Workers

/-! ## Rounds -/

/-- What a round collects are results of the tasks. -/
theorem distribute_spec {ι γ : Type} {p : Pool} {task : ι → Except Failure γ}
    {arguments : List ι} {schedule : Schedule} {timeout : Value} {results : List γ}
    (h : p.distribute task arguments schedule timeout = .ok results) :
    ∀ r ∈ results, ∃ a ∈ arguments, task a = .ok r := by
  intro r hr
  have hresults := Pool.distribute_eq_ok h
  obtain ⟨k, hk, rfl⟩ := List.getElem_of_mem hr
  have hk' : k < arguments.length := hresults.length_eq ▸ hk
  exact ⟨arguments[k], List.getElem_mem _, hresults.get hk' hk⟩

theorem onModel_run {β : Type} {post : β → Prop} {op : Transition (Model K) β}
    (h : Transition.Ensures (D.IsSound m₀) op post) :
    Transition.Ensures (D.IsRun m₀) (Coordinator.onModel op) post :=
  Transition.Ensures.focus (fun _ hc => hc.1) h fun _ _ hc hm => ⟨hm, hc.2⟩

theorem share_run (n : Value) :
    Transition.Ensures (D.IsRun m₀) (Coordinator.share n) fun _ => True := by
  exact Transition.Ensures.get.bind fun c _ => Transition.Ensures.outcome fun _ _ => True.intro

theorem round_run {β : Type} {post : β → Prop} {body : Transition (Coordinator K) β}
    (h : Transition.Ensures (D.IsRun m₀) body post) :
    Transition.Ensures (D.IsRun m₀) (Coordinator.round body) post :=
  fun c hc => h c hc

theorem enter_run (phase : Phase) :
    Transition.Ensures (D.IsRun m₀) (Coordinator.enter phase) fun _ => True :=
  Transition.Ensures.modify fun _ hc => hc

/-- The results of workers have what every task's result has that is given the
data and stores of a sound model. -/
theorem dispatch_run {β : Type} {post : β → Prop} (passes : Int)
    {task : Assignment K → Except Failure β} (schedule : Schedule)
    (htask : ∀ a : Assignment K,
      (∃ buffers, a.snapshot = m₀.configuration.withBuffers buffers) →
      (∀ t i s, a.stores.get? t i = some s → ∀ c ∈ s.cuts, D.IsValidCut m₀ t i c) →
        ∀ r, task a = .ok r → post r) :
    Transition.Ensures (D.IsRun m₀) (Coordinator.dispatch passes task schedule)
      fun results => ∀ r ∈ results, post r := by
  unfold Coordinator.dispatch
  refine Transition.Ensures.get.bind fun c hc => ?_
  refine (Transition.Ensures.outcome fun _ h => h).bind fun as has => ?_
  obtain ⟨seeds, -, has⟩ := bind_eq_ok.mp has
  cases pure_eq_ok.mp has
  have hcount : Transition.Ensures (D.IsRun m₀)
      (modify fun c : Coordinator K => { c with rounds := c.rounds + 1 }) fun _ => True :=
    Transition.Ensures.modify fun _ hc => hc
  refine hcount.bind fun _ _ => (enter_run _).bind fun _ _ => (enter_run _).bind fun _ _ => ?_
  refine Transition.Ensures.outcome fun results hresults r hr => ?_
  obtain ⟨a, ha, hresult⟩ := distribute_spec hresults r hr
  obtain ⟨seed, -, rfl⟩ := List.mem_map.mp ha
  exact htask _ hc.2 hc.1.stored r hresult

/-- Whatever workers compute, a dispatch changes nothing of the model. -/
theorem dispatch_any {β : Type} (passes : Int) (task : Assignment K → Except Failure β)
    (schedule : Schedule) :
    Transition.Ensures (D.IsRun m₀) (Coordinator.dispatch passes task schedule)
      fun _ => True := by
  have h : Transition.Ensures (D.IsRun m₀) (Coordinator.dispatch passes task schedule)
      fun results => ∀ r ∈ results, True :=
    dispatch_run passes schedule fun _ _ _ _ _ => True.intro
  exact h.trivial

theorem refresh_run {c : Coordinator K} (h : D.IsRun m₀ c) : D.IsRun m₀ c.refresh :=
  ⟨h.1, h.1.configuration⟩

theorem setInterval_sound [Quantiles K] (samples : List K) :
    Transition.Ensures (D.IsSound m₀) (Model.setInterval samples) fun _ => True := by
  refine Transition.Ensures.get.bind fun m hm => ?_
  exact (Transition.Ensures.set { hm with }).bind fun _ _ => Transition.Ensures.pure True.intro

section Rounds

variable [Quantiles K] [Seeded K]

theorem forwardRound_run (n : Value) (judge : Model K → Except Failure Bool) (schedule : Schedule) :
    Transition.Ensures (D.IsRun m₀) (Coordinator.forwardRound n judge schedule) fun _ => True := by
  refine (share_run n).bind fun passes _ => ?_
  refine (round_run (?_ : Transition.Ensures _ _ fun _ => True)).bind fun samples _ => ?_
  · refine (dispatch_any passes _ schedule).bind fun samples _ => ?_
    refine (enter_run _).bind fun _ _ => (enter_run _).bind fun _ _ => ?_
    refine (onModel_run (setInterval_sound samples.flatten)).discard.bind fun _ _ => ?_
    exact Transition.Ensures.pure True.intro
  · refine Transition.Ensures.get.bind fun c _ => ?_
    refine (Transition.Ensures.outcome fun _ _ => True.intro).bind fun _ _ => ?_
    exact Transition.Ensures.pure True.intro

theorem simulate_run (n : Value) (requested : List Value) (schedule : Schedule) :
    Transition.Ensures (D.IsRun m₀) (Coordinator.simulate n requested schedule) fun _ => True := by
  refine (Transition.Ensures.modify fun c hc => refresh_run hc).bind fun _ _ => ?_
  refine (share_run n).bind fun passes _ => round_run ?_
  refine (dispatch_any passes _ schedule).bind fun tables _ => ?_
  exact (enter_run _).bind fun _ _ => Transition.Ensures.outcome fun _ _ => True.intro

variable [IsStrictOrderedRing K] {built : Grid (StageProblem K)} (hm₀ : m₀.IsMadeOf built)
  (hs : m₀.IsStochastic) (hD : D.Describes m₀)

include hm₀ hs hD

theorem backwardRound_run (n : Value) (selection : Selection) (due : Nat → Except Failure Bool)
    (schedule : Schedule) :
    Transition.Ensures (D.IsRun m₀) (Coordinator.backwardRound n selection due schedule)
      fun _ => True := by
  refine (share_run n).bind fun passes _ => round_run ?_
  refine (dispatch_run passes schedule fun a hsnapshot hstores g hg =>
    backward_sound hm₀ hs hD hsnapshot hstores hg).bind fun grids hgrids => ?_
  refine (enter_run _).bind fun _ _ => (onModel_run (mergeAll_sound hgrids)).bind fun _ _ => ?_
  refine (enter_run _).bind fun _ _ => ?_
  refine (onModel_run (reload_sound selection false)).bind fun _ _ => ?_
  refine (onModel_run (solveFirstStage_sound hm₀ hs hD)).discard.bind fun _ _ => ?_
  exact (onModel_run (setBound_sound hm₀ hs hD)).discard

end Rounds

end Decisions

end Multistage
