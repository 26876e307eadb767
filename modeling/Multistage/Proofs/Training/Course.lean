/-
Multistage.Proofs.Training.Course — the rounds of a training run, one after another.

The course of a plan is what its rounds would be if nothing stopped them: each of them
is a backward round, with a forward round right after it whenever a test is due, and
each begins where the one before it has ended.  A training run follows this course, and
leaves it after the first round that finds the policy good enough or the time used up,
or else after the last round that is allowed (`Course.run_perform`).  So what a run
answers is read off the course, and no round of it is looked into for that.
-/
import Multistage.Proofs.Round.Monotone
import Multistage.Proofs.Round.Seeds
import Multistage.Training.Run

namespace Multistage

variable {α : Type}

/-! ## Calls in turn -/

/-- Whether a call was a forward round that found the policy good enough. -/
def Step.converged (s : Step α) : Bool :=
  match s.outcome with
  | .ok (.judged good _) => good
  | _ => false

/-- A call that raised nothing. -/
def Step.Succeeds (s : Step α) : Prop := ∃ a, s.outcome = .ok a

namespace Coordinator

variable [Statistical α] [Seeded α] {c : Coordinator α} {n : Value} {pool : Pool}
  {schedule : Schedule}

/-- The coordinator after the turns of a sequence. -/
def afterTurns (turns : List (Turn α)) (c : Coordinator α) : Coordinator α :=
  turns.foldl (fun c turn => (c.step turn).after) c

/-- What every turn keeps is kept by a sequence of turns. -/
theorem afterTurns_induction {I : Coordinator α → Prop} {turns : List (Turn α)}
    (hstep : ∀ c, ∀ turn ∈ turns, I c → I (c.step turn).after) (hc : I c) :
    I (c.afterTurns turns) := by
  induction turns generalizing c with
  | nil => exact hc
  | cons turn turns ih =>
    exact ih (fun c turn hturn => hstep c turn (List.mem_cons_of_mem _ hturn))
      (hstep c turn List.mem_cons_self hc)

theorem step_pool (hidle : c.phase = .idle) (turn : Turn α) :
    (c.step turn).after.pool = turn.pool := by
  obtain ⟨snapshot, model, hafter, -⟩ := step_cases hidle turn
  rw [hafter]
  rfl

omit [Statistical α] [Seeded α] in
theorem withPool_eq_self (h : c.pool = pool) : c.withPool pool = c := by
  rw [← h]
  rfl

/-- A backward round that succeeds as a call succeeds. -/
theorem backwardRound_of_step {selection : Selection} {due : Nat → Except Failure Bool}
    (h : (c.step ⟨.backward n selection due, pool, schedule⟩).Succeeds) :
    (backwardRound n selection due schedule).perform (c.withPool pool)
      = (.ok ⟨⟩, (c.step ⟨.backward n selection due, pool, schedule⟩).after) := by
  obtain ⟨a, h⟩ := h
  simp only [step, Call.operation, Transition.perform_map] at h ⊢
  refine Prod.ext ?_ rfl
  cases hrun : ((backwardRound n selection due schedule).perform (c.withPool pool)).1 with
  | error e =>
    rw [hrun] at h
    cases h
  | ok u => rfl

/-- A backward round does not judge the policy. -/
theorem step_backward_converged {selection : Selection} {due : Nat → Except Failure Bool} :
    (c.step ⟨.backward n selection due, pool, schedule⟩).converged = false := by
  unfold Step.converged
  simp only [step, Call.operation, Transition.perform_map]
  cases ((backwardRound n selection due schedule).perform (c.withPool pool)).1 with
  | error e => rfl
  | ok u => rfl

/-- A forward round that succeeds as a call answers what the call answers. -/
theorem forwardRound_of_step {judge : Model α → Except Failure Bool}
    (h : (c.step ⟨.forward n judge, pool, schedule⟩).Succeeds) :
    ∃ passes, (forwardRound n judge schedule).perform (c.withPool pool)
      = (.ok ((c.step ⟨.forward n judge, pool, schedule⟩).converged, passes),
          (c.step ⟨.forward n judge, pool, schedule⟩).after) := by
  obtain ⟨a, h⟩ := h
  unfold Step.converged
  simp only [step, Call.operation, Transition.perform_map] at h ⊢
  cases hrun : ((forwardRound n judge schedule).perform (c.withPool pool)).1 with
  | error e =>
    rw [hrun] at h
    cases h
  | ok answer => exact ⟨answer.2, Prod.ext hrun rfl⟩

/-- A call that succeeds has handed out tasks. -/
theorem step_dispatches (hidle : c.phase = .idle) {turn : Turn α} (h : (c.step turn).Succeeds) :
    (c.step turn).before.dispatches turn.call.passes = true := by
  -- without results the call fails, and results take the shares and the seeds
  have hresults : ∀ {β : Type} {task : Assignment α → Except Failure β} {rs : List β}
      {b : Coordinator α} {n : Value}, b.results n task turn.schedule = .ok rs →
      b.dispatches n = true := fun hrs => by
    obtain ⟨as, has, -⟩ := bind_eq_ok.mp hrs
    exact dispatches_iff.mpr ⟨as, has⟩
  obtain ⟨a, h⟩ := h
  cases hcall : turn.call with
  | backward n selection due =>
    obtain ⟨grids, hrs, -⟩ := step_backward_ok hidle hcall h
    exact hresults hrs
  | forward n judge =>
    have hstep := congrArg Prod.fst (step_forward hidle hcall)
    cases hrs : (c.step turn).before.results n Assignment.forward turn.schedule with
    | error e =>
      rw [hrs, h] at hstep
      cases hstep
    | ok samples => exact hresults hrs
  | simulate n requested =>
    have hbefore : (c.withPool turn.pool).phase = .idle := hidle
    unfold step at h
    rw [hcall] at h
    simp only [Call.operation, Transition.perform_map, simulate_perform hbefore] at h
    cases hrs : (c.withPool turn.pool).refresh.results n (fun a => a.simulate requested)
      turn.schedule with
    | error e =>
      rw [hrs] at h
      cases h
    | ok tables => exact (dispatches_snapshot ..).symm.trans (hresults hrs)

/-- Every call of a sequence that succeeds is counted as a round. -/
theorem afterTurns_rounds {turns : List (Turn α)} (hidle : c.phase = .idle)
    (h : ∀ s ∈ steps turns c, s.Succeeds) :
    (c.afterTurns turns).rounds = c.rounds + turns.length := by
  induction turns generalizing c with
  | nil => rfl
  | cons turn turns ih =>
    obtain ⟨hfirst, hrest⟩ := List.forall_mem_cons.mp h
    obtain ⟨hidle', hrounds⟩ := step_counted hidle turn
    rw [if_pos (step_dispatches hidle hfirst)] at hrounds
    have hlater : ((c.step turn).after.afterTurns turns).rounds = _ := ih hidle' hrest
    show ((c.step turn).after.afterTurns turns).rounds = _
    rw [hlater, hrounds, List.length_cons]
    show c.rounds + 1 + turns.length = c.rounds + (turns.length + 1)
    omega

end Coordinator

/-! ## The rounds of a plan -/

namespace Plan

variable {plan : Plan α} {pool : Pool} {due : Bool}

/-- The backward round of a plan, as a call. -/
def backward (plan : Plan α) (pool : Pool) : Turn α :=
  ⟨.backward plan.backwardPasses plan.selection plan.selectsAnew, pool, pool.schedule⟩

/-- The forward round of a plan, as a call. -/
def forward (plan : Plan α) (pool : Pool) : Turn α :=
  ⟨.forward plan.forwardPasses plan.judge, pool, pool.schedule⟩

/-- The calls of a round: a backward round and, if a test is due, a forward round right
after it. -/
def turns (plan : Plan α) (pool : Pool) (due : Bool) : List (Turn α) :=
  plan.backward pool :: if due then [plan.forward pool] else []

theorem length_turns : (plan.turns pool due).length = 1 + if due then 1 else 0 := by
  cases due <;> rfl

theorem turns_pool {turn : Turn α} (h : turn ∈ plan.turns pool due) : turn.pool = pool := by
  cases due with
  | false =>
    rw [List.mem_singleton.mp h]
    rfl
  | true =>
    rcases List.mem_cons.mp h with rfl | h
    · rfl
    · rw [List.mem_singleton.mp h]
      rfl

end Plan

/-- A round of a run is its calls in turn, as long as they succeed. -/
theorem Progress.roundOf_perform [Statistical α] [Seeded α] {plan : Plan α} {k : Nat} {due : Bool}
    {p : Progress α} (hidle : p.coordinator.phase = .idle) (htests : plan.tests k = .ok due)
    (h : ∀ s ∈ Coordinator.steps (plan.turns p.coordinator.pool due) p.coordinator, s.Succeeds) :
    (roundOf plan k).perform p
      = (.ok ((Coordinator.steps (plan.turns p.coordinator.pool due) p.coordinator).any
            Step.converged),
          { p with
            coordinator := p.coordinator.afterTurns (plan.turns p.coordinator.pool due) }) := by
  have hfirst := h (p.coordinator.step (plan.backward p.coordinator.pool)) List.mem_cons_self
  have hbackward : (coordinate (Coordinator.backwardRound plan.backwardPasses plan.selection
      plan.selectsAnew p.schedule)).perform p = _ :=
    Transition.focus_eq_ok.mpr ⟨_, Coordinator.backwardRound_of_step hfirst, rfl⟩
  unfold roundOf
  rw [Transition.perform_bind_ok (Transition.perform_get p)]
  dsimp only
  rw [Transition.perform_bind_ok hbackward, Transition.perform_outcome_bind htests]
  have hjudges : (p.coordinator.step (plan.backward p.coordinator.pool)).converged = false :=
    Coordinator.step_backward_converged
  cases due with
  | false =>
    simp only [Plan.turns, Bool.false_eq_true, if_false, Coordinator.steps, List.any_cons,
      List.any_nil, hjudges, Bool.or_false]
    rfl
  | true =>
    -- the forward round has the pool that the backward round leaves
    have hpool := Coordinator.withPool_eq_self
      (Coordinator.step_pool hidle (plan.backward p.coordinator.pool))
    obtain ⟨passes, hrun⟩ := Coordinator.forwardRound_of_step
      (h _ (List.mem_cons_of_mem _ List.mem_cons_self))
    have hforward : (coordinate (Coordinator.forwardRound plan.forwardPasses plan.judge
        p.schedule)).perform { p with
          coordinator := (p.coordinator.step (plan.backward p.coordinator.pool)).after } = _ :=
      Transition.focus_eq_ok.mpr ⟨_, hpool ▸ hrun, rfl⟩
    simp only [Plan.turns, if_true, Coordinator.steps, List.any_cons, List.any_nil, hjudges,
      Bool.or_false, Bool.false_or]
    exact (Transition.perform_bind_ok hforward).trans rfl

/-- Writing down a round adds to the history, and perhaps to the lines. -/
theorem Progress.record_perform {plan : Plan α} {k : Nat} {converged due : Bool}
    {text : String} {p : Progress α} (hreports : plan.reports k = .ok due)
    (hline : plan.line (p.entry k converged) = .ok text) :
    ∃ reported, (record plan k converged).perform p
      = (.ok ⟨⟩, { p with history := p.history ++ [p.entry k converged],
                          reported := reported }) := by
  unfold record
  rw [Transition.perform_bind_ok (Transition.perform_get p)]
  dsimp only
  rw [Transition.perform_bind_ok (Transition.perform_modify ..),
    Transition.perform_outcome_bind hreports]
  cases due || converged with
  | false => exact ⟨p.reported, rfl⟩
  | true =>
    refine ⟨p.reported ++ [text], ?_⟩
    rw [if_pos rfl, Transition.perform_outcome_bind hline]
    rfl

/-! ## The course of a plan -/

/-- What a training run has before it: a plan, the coordinator that sets out, the number of
rounds from one test to the next, zero if there are none, and the seconds that will have
passed after each round. -/
structure Course (α : Type) where
  plan : Plan α
  start : Coordinator α
  frequency : Nat
  clock : Nat → α

namespace Course

variable [Statistical α] [Seeded α] (r : Course α)

/-- Whether a test is due right after round `k`. -/
def tests (k : Nat) : Bool := decide (0 < r.frequency ∧ r.frequency ∣ k)

/-- The coordinator after so many rounds. -/
def after : Nat → Coordinator α
  | 0 => r.start
  | k + 1 => (after k).afterTurns (r.plan.turns r.start.pool (r.tests (k + 1)))

/-- The calls of a round; rounds are counted from one. -/
def calls : Nat → List (Step α)
  | 0 => []
  | k + 1 => Coordinator.steps (r.plan.turns r.start.pool (r.tests (k + 1))) (r.after k)

/-- Whether the forward round of round `k` finds the policy good enough. -/
def converges (k : Nat) : Bool := (r.calls k).any Step.converged

/-- Whether the time is used up after a round. -/
def isOver : Nat → Bool
  | 0 => false
  | k + 1 => r.plan.isOver (r.clock (k + 1))

/-- Whether there is a reason to stop after round `k`. -/
def stops (k : Nat) : Bool := r.converges k || r.isOver k

/-- No round before round `k` is a reason to stop. -/
def Reaches (k : Nat) : Prop := ∀ j < k, r.stops j = false

/-- Why a run has ended that has ended with round `k`. -/
def ending (k : Nat) : Ending :=
  if r.converges k then .converged else if r.isOver k then .timeLimit else .maxIterations

/-- A run with so many rounds at most ends with the first round after which there is a
reason to stop, or else with the last one allowed. -/
structure EndsAt (limit last : Nat) : Prop where
  within : last ≤ limit
  reached : r.Reaches last
  final : r.stops last = true ∨ last = limit

/-- What is written down about round `k`. -/
def entry (k : Nat) : HistoryEntry α where
  iteration := k
  figures := (r.after k).model.figures
  cutCount := (r.after k).model.cutCount
  converged := r.converges k

/-- What is written down about the first rounds. -/
def history (last : Nat) : List (HistoryEntry α) :=
  (List.range last).map fun k => r.entry (k + 1)

/-- A round that gets done: none of its calls fails, and no decision about it. -/
structure IsDone (k : Nat) : Prop where
  succeeds : ∀ s ∈ r.calls k, s.Succeeds
  tests : r.plan.tests k = .ok (r.tests k)
  reports : ∃ due, r.plan.reports k = .ok due
  line : ∃ text, r.plan.line (r.entry k) = .ok text

variable {r} {k last limit : Nat}

theorem ending_converged :
    r.ending k = .converged ↔ r.converges k = true := by
  unfold ending
  cases r.converges k <;> cases r.isOver k <;> decide

theorem ending_timeLimit :
    r.ending k = .timeLimit ↔ r.converges k = false ∧ r.isOver k = true := by
  unfold ending
  cases r.converges k <;> cases r.isOver k <;> decide

theorem ending_maxIterations :
    r.ending k = .maxIterations ↔ r.converges k = false ∧ r.isOver k = false := by
  unfold ending
  cases r.converges k <;> cases r.isOver k <;> decide

theorem history_succ (last : Nat) :
    r.history (last + 1) = r.history last ++ [r.entry (last + 1)] := by
  rw [history, List.range_succ, List.map_append]
  rfl

/-- Which round a run ends with is settled. -/
theorem EndsAt.unique {last' : Nat} (h : r.EndsAt limit last) (h' : r.EndsAt limit last') :
    last = last' := by
  -- neither of the two comes before the other, which has not been stopped so early
  have hle : ∀ {a b : Nat}, r.EndsAt limit a → r.EndsAt limit b → a ≤ b := by
    intro a b ha hb
    by_contra hlt
    have hon : r.stops b = false := ha.reached b (not_le.mp hlt)
    rcases hb.final with hstops | hlimit
    · cases hon.symm.trans hstops
    · exact hlt (ha.within.trans hlimit.ge)
  exact Nat.le_antisymm (hle h h') (hle h' h)

section Idle

variable (hidle : r.start.phase = .idle)

include hidle

theorem after_idle (k : Nat) : (r.after k).phase = .idle ∧ (r.after k).pool = r.start.pool := by
  induction k with
  | zero => exact ⟨hidle, rfl⟩
  | succ k ih =>
    refine Coordinator.afterTurns_induction
      (I := fun c => c.phase = .idle ∧ c.pool = r.start.pool) (fun c turn hturn hc => ?_) ih
    exact ⟨(Coordinator.step_counted hc.1 turn).1,
      (Coordinator.step_pool hc.1 turn).trans (Plan.turns_pool hturn)⟩

/-- Invariants that last hold of the model all along. -/
theorem after_lasts {inv : Model α → Prop} (hinv : Model.Lasts inv) (h : inv (r.after k).model)
    (j : Nat) : inv (r.after (k + j)).model := by
  induction j with
  | zero => exact h
  | succ j ih =>
    refine (Coordinator.afterTurns_induction
      (I := fun c : Coordinator α => c.phase = .idle ∧ inv c.model)
      (fun c turn _ hc => ?_) ⟨(after_idle hidle _).1, ih⟩).2
    exact ⟨(Coordinator.step_counted hc.1 turn).1, Coordinator.step_lasts hinv hc.1 turn hc.2⟩

/-- Cuts are only ever added. -/
theorem after_cutCount {k k' : Nat} (h : k ≤ k') :
    (r.after k).model.cutCount ≤ (r.after k').model.cutCount := by
  obtain ⟨j, rfl⟩ := Nat.exists_eq_add_of_le h
  exact after_lasts hidle (.cutCount (r.after k).model.cutCount) le_rfl j

/-- The coordinator counts the rounds of the course and the tests after them. -/
theorem after_rounds (h : ∀ k < last, ∀ s ∈ r.calls (k + 1), s.Succeeds) :
    (r.after last).rounds = r.start.rounds + (last + last / r.frequency) := by
  induction last with
  | zero => simp [after]
  | succ k ih =>
    have hround : (r.after (k + 1)).rounds = (r.after k).rounds + _ :=
      Coordinator.afterTurns_rounds (after_idle hidle k).1 (h k (Nat.lt_succ_self k))
    have htests : (if r.tests (k + 1) then 1 else 0 : Nat)
        = if r.frequency ∣ k + 1 then 1 else 0 := by
      refine if_congr ?_ rfl rfl
      unfold tests
      rw [decide_eq_true_iff, and_iff_right_of_imp]
      exact fun hdvd => Nat.pos_of_dvd_of_pos hdvd (Nat.succ_pos k)
    rw [hround, ih fun j hj => h j (Nat.lt_succ_of_lt hj), Plan.length_turns, htests,
      Nat.succ_div]
    omega

/-! ## Runs along a course -/

/-- A run that has come as far as round `k` goes through the next round of the course and
writes it down. -/
theorem next_perform {p : Progress α} (hcoordinator : p.coordinator = r.after k)
    (hhistory : p.history = r.history k) (h : r.IsDone (k + 1)) :
    ∃ p' : Progress α, p'.coordinator = r.after (k + 1) ∧ p'.history = r.history (k + 1) ∧
      (Progress.roundOf r.plan (k + 1)).perform p
        = (.ok (r.converges (k + 1)), { p with coordinator := r.after (k + 1) }) ∧
      (Progress.record r.plan (k + 1) (r.converges (k + 1))).perform
        { p with coordinator := r.after (k + 1) } = (.ok ⟨⟩, p') := by
  obtain ⟨hphase, hpool⟩ := after_idle hidle k
  obtain ⟨due, hreports⟩ := h.reports
  obtain ⟨text, hline⟩ := h.line
  have hround := Progress.roundOf_perform (p := p) (hcoordinator ▸ hphase) h.tests
    (by rw [hcoordinator, hpool]; exact h.succeeds)
  rw [hcoordinator, hpool] at hround
  have hline' : r.plan.line (Progress.entry { p with coordinator := r.after (k + 1) } (k + 1)
      (r.converges (k + 1))) = .ok text := hline
  obtain ⟨reported, hrecord⟩ := Progress.record_perform hreports hline'
  refine ⟨_, ?_, ?_, hround, hrecord⟩
  · rfl
  · rw [history_succ, ← hhistory]
    rfl

/-- A run follows its course up to the first round after which there is a reason to stop,
or else up to the last one allowed. -/
theorem roundsFrom_perform (hdone : ∀ k < limit, r.Reaches (k + 1) → r.IsDone (k + 1)) :
    ∀ (n k : Nat) (p : Progress α), k + n = limit → r.Reaches (k + 1) →
      p.coordinator = r.after k → p.history = r.history k →
      ∃ last p', r.EndsAt limit last ∧
        (Progress.roundsFrom r.plan r.clock n (k + 1)).perform p = (.ok (r.ending last), p') ∧
        p'.coordinator = r.after last ∧ p'.history = r.history last := by
  -- induction on the rounds that are left; each of them stops the run or leads to the next
  intro n
  induction n with
  | zero =>
    intro k p hlimit hreached hcoordinator hhistory
    have hon : r.stops k = false := hreached k (Nat.lt_succ_self k)
    obtain ⟨hconverges, hover⟩ := Bool.or_eq_false_iff.mp hon
    refine ⟨k, p, ⟨hlimit.le, fun j hj => hreached j (Nat.lt_succ_of_lt hj), .inr hlimit⟩, ?_,
      hcoordinator, hhistory⟩
    rw [ending, hconverges, hover]
    rfl
  | succ n ih =>
    intro k p hlimit hreached hcoordinator hhistory
    obtain ⟨p', hcoordinator', hhistory', hround, hrecord⟩ :=
      next_perform hidle hcoordinator hhistory (hdone k (by omega) hreached)
    have hclock : r.plan.isOver (r.clock (k + 1)) = r.isOver (k + 1) := rfl
    rw [Progress.roundsFrom, Transition.perform_bind_ok hround,
      Transition.perform_bind_ok hrecord, hclock]
    have hend : r.stops (k + 1) = true → r.EndsAt limit (k + 1) := fun hstops =>
      ⟨by omega, hreached, .inl hstops⟩
    cases hconverges : r.converges (k + 1) with
    | true =>
      refine ⟨k + 1, p', hend (by rw [stops, hconverges, Bool.true_or]), ?_, hcoordinator',
        hhistory'⟩
      rw [ending, hconverges]
      rfl
    | false =>
      rw [if_neg Bool.false_ne_true]
      cases hover : r.isOver (k + 1) with
      | true =>
        refine ⟨k + 1, p', hend (by rw [stops, hover, Bool.or_true]), ?_, hcoordinator',
          hhistory'⟩
        rw [ending, hconverges, hover]
        rfl
      | false =>
        rw [if_neg Bool.false_ne_true]
        refine ih (k + 1) p' (by omega) (fun j hj => ?_) hcoordinator' hhistory'
        rcases Nat.lt_succ_iff_lt_or_eq.mp hj with hj | rfl
        · exact hreached j hj
        · rw [stops, hconverges, hover]
          rfl

/-- A run follows its course and ends where and as the course says. -/
theorem run_perform (hlist : r.start.pool.isListable = true) (hlimit : r.plan.rounds = .ok limit)
    (hdone : ∀ k < limit, r.Reaches (k + 1) → r.IsDone (k + 1)) :
    ∃ last p, r.EndsAt limit last ∧
      (Progress.run r.plan r.clock).perform { coordinator := r.start } = (.ok (r.ending last), p) ∧
      p.coordinator = r.after last ∧ p.history = r.history last := by
  have hcheck : r.start.pool.checkListable = .ok ⟨⟩ := if_pos hlist
  have hreached : r.Reaches 1 := by
    intro j hj
    rw [Nat.lt_one_iff.mp hj]
    rfl
  unfold Progress.run
  rw [Transition.perform_bind_ok (Transition.perform_get _)]
  dsimp only
  rw [Transition.perform_outcome_bind hcheck, Transition.perform_outcome_bind hlimit]
  exact roundsFrom_perform hidle hdone limit 0 _ (Nat.zero_add limit) hreached rfl rfl

end Idle

end Course

/-! ## What is made of a run -/

theorem Ending.name_inj {e e' : Ending} : e.name = e'.name ↔ e = e' := by
  cases e <;> cases e' <;> decide

section Train

variable [Statistical α] [Seeded α] {plan : Plan α} {pool : Pool} {clock : Nat → α} {m : Model α}

theorem Model.train_perform {level : Option Int} (hlevel : plan.logLevel = .ok level)
    {ending : Ending} {p : Progress α}
    (h : (Progress.run plan clock).perform { coordinator := .start m pool plan.seed plan.timeout }
      = (.ok ending, p)) :
    (train plan pool clock).perform m
      = (.ok (p.result clock ending, p.reported), p.coordinator.model) := by
  unfold train
  rw [Transition.perform_outcome_bind hlevel, Transition.perform_of]
  dsimp only
  rw [h]
  rfl

/-- A log that cannot be set up ends a run before its first round. -/
theorem Model.train_unlogged {e : Failure} (he : plan.logLevel = .error e) :
    (train plan pool clock).perform m = (.error e, m) := by
  unfold train
  exact Transition.perform_bind_error ((Transition.perform_outcome _ _).trans (by rw [he]))

end Train

/-- A result that is true to a course that has ended with round `last`.  Its status is why
the run has ended; its history tells of all rounds in order, of which only the last one can
have converged, and in which there are ever more cuts; and it gives the figures of the last
entry, or those of the model that the run has begun with if there is none. -/
structure TrainingResult.IsTrueTo [Statistical α] [Seeded α] (t : TrainingResult α)
    (r : Course α) (limit last : Nat) : Prop where
  iterations : t.iterations = last
  converged : t.status = convergedStatus ↔ r.converges last = true
  timeLimit : t.status = timeLimitStatus ↔ r.converges last = false ∧ r.isOver last = true
  maxIterations : t.status = maxIterationsStatus ↔ r.converges last = false ∧ r.isOver last = false
  exhausted : t.status = maxIterationsStatus → t.iterations = limit
  history : t.history = r.history last
  numbered : t.history.map HistoryEntry.iteration = List.range' 1 t.iterations
  marked : ∀ e ∈ t.history, e.converged = true → e.iteration = t.iterations
  growing : (t.history.map HistoryEntry.cutCount).Pairwise (· ≤ ·)
  latest : (t.figures, t.cutCount)
    = (t.history.getLast?.map fun e => (e.figures, e.cutCount)).getD
        (r.start.model.figures, r.start.model.cutCount)

section Results

variable [Statistical α] [Seeded α] {r : Course α} {limit last : Nat}

theorem Course.mem_history {e : HistoryEntry α} :
    e ∈ r.history last ↔ ∃ k < last, e = r.entry (k + 1) := by
  simp [history, eq_comm]

theorem Course.history_latest (last : Nat) :
    ((r.after last).model.figures, (r.after last).model.cutCount)
      = ((r.history last).getLast?.map fun e => (e.figures, e.cutCount)).getD
          (r.start.model.figures, r.start.model.cutCount) := by
  cases last with
  | zero => rfl
  | succ k =>
    rw [history_succ, List.getLast?_concat]
    rfl

/-- Before the last round nothing has converged. -/
theorem Course.EndsAt.marked (h : r.EndsAt limit last) {e : HistoryEntry α}
    (he : e ∈ r.history last) (hconverged : e.converged = true) : e.iteration = last := by
  obtain ⟨k, hk, rfl⟩ := mem_history.mp he
  by_contra hne
  have hnext : k + 1 < last := lt_of_le_of_ne hk hne
  have hon : r.stops (k + 1) = false := h.reached _ hnext
  have hon' : r.converges (k + 1) = false := (Bool.or_eq_false_iff.mp hon).1
  cases hon'.symm.trans hconverged

theorem Course.result_isTrueTo (hidle : r.start.phase = .idle) (h : r.EndsAt limit last)
    {p : Progress α} (hcoordinator : p.coordinator = r.after last)
    (hhistory : p.history = r.history last) :
    (p.result r.clock (r.ending last)).IsTrueTo r limit last := by
  have hlength : (r.history last).length = last := by simp [history]
  have hiterations : (p.result r.clock (r.ending last)).iterations = last :=
    (congrArg List.length hhistory).trans hlength
  have hstatus : ∀ e : Ending, (p.result r.clock (r.ending last)).status = e.name
      ↔ r.ending last = e := fun e => Ending.name_inj
  have hmax := (hstatus .maxIterations).trans ending_maxIterations
  refine ⟨hiterations, (hstatus .converged).trans ending_converged,
    (hstatus .timeLimit).trans ending_timeLimit, hmax, fun h' => ?_, hhistory, ?_, ?_, ?_, ?_⟩
  · obtain ⟨hconverges, hover⟩ := hmax.mp h'
    rw [hiterations]
    refine h.final.resolve_left fun hstops => ?_
    rw [stops, hconverges, hover] at hstops
    cases hstops
  · rw [hiterations]
    show p.history.map _ = _
    rw [hhistory, history, List.map_map, List.range'_eq_map_range]
    exact List.map_congr_left fun k _ => Nat.add_comm k 1
  · rw [hiterations]
    intro e he
    exact h.marked (hhistory ▸ he)
  · show (p.history.map _).Pairwise _
    rw [hhistory, history, List.map_map, List.pairwise_map]
    refine List.pairwise_lt_range.imp fun hlt => ?_
    exact after_cutCount hidle (Nat.succ_le_succ hlt.le)
  · show (p.coordinator.model.figures, p.coordinator.model.cutCount)
      = (p.history.getLast?.map _).getD _
    rw [hcoordinator, hhistory]
    exact history_latest last

end Results

end Multistage
