/-
Multistage.Proofs.Training.Soundness — training keeps cuts and bounds valid.

A training run is made of rounds and of entries in its history, which leave the
coordinator alone.  So it keeps whatever backward and forward rounds keep, whatever its
plan is and wherever it ends (`Progress.run_keeps`).
-/
import Multistage.Proofs.Round.Soundness
import Multistage.Training.Run

namespace Multistage

/-! ## Rounds of a run -/

namespace Progress

variable {α β : Type} {inv : Coordinator α → Prop}

theorem coordinate_keeps {op : Transition (Coordinator α) β} {post : β → Prop}
    (h : Transition.Ensures inv op post) :
    Transition.Ensures (fun p : Progress α => inv p.coordinator) (coordinate op) post :=
  Transition.Ensures.focus (fun _ hp => hp) h fun _ _ _ hc => hc

/-- Writing down a round leaves the coordinator alone. -/
theorem record_keeps (plan : Plan α) (k : Nat) (converged : Bool) :
    Transition.Ensures (fun p : Progress α => inv p.coordinator) (record plan k converged)
      fun _ => True := by
  unfold record
  refine Transition.Ensures.get.bind fun p _ => ?_
  have hhistory : Transition.Ensures (fun p : Progress α => inv p.coordinator)
      (modify fun q => { q with history := q.history ++ [p.entry k converged] }) fun _ => True :=
    Transition.Ensures.modify fun _ hp => hp
  refine hhistory.bind fun _ _ => ?_
  refine (Transition.Ensures.outcome fun _ _ => True.intro).bind fun due _ => ?_
  split
  · refine (Transition.Ensures.outcome fun _ _ => True.intro).bind fun line _ => ?_
    exact Transition.Ensures.modify fun _ hp => hp
  · exact Transition.Ensures.pure True.intro

variable [Statistical α] [Seeded α]
  (hbackward : ∀ (n : Value) (selection : Selection) (due : Nat → Except Failure Bool)
    (schedule : Schedule),
    Transition.Ensures inv (Coordinator.backwardRound n selection due schedule) fun _ => True)
  (hforward : ∀ (n : Value) (judge : Model α → Except Failure Bool) (schedule : Schedule),
    Transition.Ensures inv (Coordinator.forwardRound n judge schedule) fun _ => True)

include hbackward hforward

theorem roundOf_keeps (plan : Plan α) (k : Nat) :
    Transition.Ensures (fun p : Progress α => inv p.coordinator) (roundOf plan k)
      fun _ => True := by
  unfold roundOf
  refine Transition.Ensures.get.bind fun p _ => ?_
  refine (coordinate_keeps (hbackward _ _ _ _)).bind fun _ _ => ?_
  refine (Transition.Ensures.outcome fun _ _ => True.intro).bind fun due _ => ?_
  split
  · exact (coordinate_keeps (hforward _ _ _)).bind fun _ _ => Transition.Ensures.pure True.intro
  · exact Transition.Ensures.pure True.intro

theorem roundsFrom_keeps (plan : Plan α) (clock : Nat → α) (n k : Nat) :
    Transition.Ensures (fun p : Progress α => inv p.coordinator) (roundsFrom plan clock n k)
      fun _ => True := by
  induction n generalizing k with
  | zero => exact Transition.Ensures.pure True.intro
  | succ n ih =>
    refine (roundOf_keeps hbackward hforward plan k).bind fun converged _ => ?_
    refine (record_keeps plan k converged).bind fun _ _ => ?_
    split
    · exact Transition.Ensures.pure True.intro
    · split
      · exact Transition.Ensures.pure True.intro
      · exact ih (k + 1)

/-- A run keeps what both kinds of rounds keep. -/
theorem run_keeps (plan : Plan α) (clock : Nat → α) :
    Transition.Ensures (fun p : Progress α => inv p.coordinator) (run plan clock)
      fun _ => True := by
  unfold run
  refine Transition.Ensures.get.bind fun p _ => ?_
  refine (Transition.Ensures.outcome fun _ _ => True.intro).bind fun _ _ => ?_
  refine (Transition.Ensures.outcome fun _ _ => True.intro).bind fun n _ => ?_
  exact roundsFrom_keeps hbackward hforward plan clock n 1

end Progress

/-! ## Models that are trained or simulated -/

namespace Decisions

variable {K : Type} [Field K] [LinearOrder K] [Quantiles K] [Seeded K] {D : Decisions K}
  {m₀ : Model K}

/-- All cuts of a model that is trained stay valid, also when the training fails. -/
theorem train_sound [IsStrictOrderedRing K] {built : Grid (StageProblem K)}
    (hm₀ : m₀.IsMadeOf built) (hs : m₀.IsStochastic) (hD : D.Describes m₀) (plan : Plan K)
    (pool : Pool) (clock : Nat → K) :
    Transition.Ensures (D.IsSound m₀) (Model.train plan pool clock) fun _ => True := by
  refine (Transition.Ensures.outcome fun _ _ => True.intro).bind fun _ _ => fun m hm => ?_
  have hstart : D.IsRun m₀ (.start m pool plan.seed plan.timeout) := ⟨hm, hm.configuration⟩
  obtain ⟨hrun, -⟩ := Progress.run_keeps (fun n selection due schedule =>
    backwardRound_run hm₀ hs hD n selection due schedule)
    (fun n judge schedule => forwardRound_run n judge schedule) plan clock
    { coordinator := .start m pool plan.seed plan.timeout } hstart
  exact ⟨hrun.1, fun _ _ => True.intro⟩

theorem simulateWith_sound (pool : Pool) (seed n : Value) (requested : List Value) :
    Transition.Ensures (D.IsSound m₀) (Model.simulateWith pool seed n requested)
      fun _ => True := by
  intro m hm
  have hstart : D.IsRun m₀ (.start m pool seed) := ⟨hm, hm.configuration⟩
  obtain ⟨hrun, -⟩ := simulate_run n requested pool.schedule (.start m pool seed) hstart
  exact ⟨hrun.1, fun _ _ => True.intro⟩

end Decisions

end Multistage
