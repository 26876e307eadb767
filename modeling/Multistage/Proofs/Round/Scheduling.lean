/-
Multistage.Proofs.Round.Scheduling — rounds do not depend on the order in which
workers complete.

`Wait` is a round in progress.  Every task works on a copy of its own of what it
was given, and may change that copy; it completes when its turn comes, with a
result or with a failure, and the timer may fire at any moment.  When the wait
ends, the answers are read off worker by worker.  For every schedule this yields
what `gather` says, where only the set of workers counts that have completed
in time (`Wait.finish_run`).  Without a timeout this is the set of all workers, so a sequence of
rounds computes what it computes with workers that complete in order
(`Coordinator.steps_order`).
-/
import Multistage.Proofs.Round.Calls
import Multistage.Proofs.Round.Reachable

namespace Multistage

variable {ι β : Type}

/-! ## Waiting for tasks -/

/-- A task of a round, with a copy of its own of what it was given, and with its
answer once it has completed. -/
structure Running (ι β : Type) where
  copy : ι
  answer : Option (Except Failure β) := none

/-- A round that waits for its tasks. -/
structure Wait (ι β : Type) where
  given : List ι
  running : List (Running ι β)
  expired : Bool := false

namespace Running

/-- A task runs from its copy to its end, once. -/
def complete (work : Transition ι β) (r : Running ι β) : Running ι β :=
  match r.answer with
  | some _ => r
  | none => ⟨(work.perform r.copy).2, some (work.perform r.copy).1⟩

/-- A task that was given an argument, before or after it has completed. -/
def of (work : Transition ι β) (a : ι) (completed : Bool) : Running ι β :=
  if completed then complete work ⟨a, none⟩ else ⟨a, none⟩

theorem complete_of (work : Transition ι β) (a : ι) (completed : Bool) :
    (of work a completed).complete work = of work a true := by
  cases completed <;> rfl

end Running

namespace Wait

/-- All tasks have been started. -/
def start (arguments : List ι) : Wait ι β :=
  { given := arguments, running := arguments.map fun a => ⟨a, none⟩ }

/-- An event that happens during the wait; after the timer nothing counts. -/
def step (work : Transition ι β) (w : Wait ι β) (event : Event) : Wait ι β :=
  if w.expired then w
  else match event with
    | .completes k => { w with running := w.running.modify k (Running.complete work) }
    | .timer => { w with expired := true }

/-- The events of a schedule happen one after another. -/
def run (work : Transition ι β) (schedule : Schedule) (w : Wait ι β) : Wait ι β :=
  schedule.foldl (step work) w

/-- The number of tasks without an answer. -/
def unfinished (w : Wait ι β) : Nat := w.running.countP fun r => r.answer.isNone

/-- The end of the wait: the answers are read off in the order of the workers. -/
def finish (w : Wait ι β) (timeout : Value) : Except Failure (List β) :=
  if 0 < w.unfinished then abandon w.unfinished w.running.length timeout
  else (w.running.filterMap Running.answer).mapM id

/-- A wait in which some tasks have completed. -/
def within (work : Transition ι β) (arguments : List ι) (completed : Nat → Bool)
    (expired : Bool) : Wait ι β where
  given := arguments
  running := arguments.zipIdx.map fun (a, k) => Running.of work a (completed k)
  expired := expired

variable {work : Transition ι β} {arguments : List ι}

theorem start_eq : start arguments = within work arguments (fun _ => false) false := by
  have hrunning : (within work arguments (fun _ => false) false).running
      = (arguments.zipIdx.map Prod.fst).map fun a => ⟨a, none⟩ := by
    rw [List.map_map]
    rfl
  rw [List.zipIdx_map_fst] at hrunning
  unfold start
  rw [← hrunning]
  rfl

theorem step_completes {completed : Nat → Bool} (k : Nat) :
    step work (within work arguments completed false) (.completes k)
      = within work arguments (fun j => j == k || completed j) false := by
  have hrunning : (within work arguments completed false).running.modify k (Running.complete work)
      = (within work arguments (fun j => j == k || completed j) false).running := by
    refine List.ext_getElem (by simp [within]) fun j hj _ => ?_
    rw [List.getElem_modify]
    by_cases h : k = j
    · simp [within, h, Running.complete_of]
    · have hj : (j == k) = false := by
        simpa using Ne.symm h
      simp [within, h, hj]
  show Wait.mk _ _ _ = _
  rw [hrunning]
  rfl

theorem run_expired {completed : Nat → Bool} (schedule : Schedule) :
    run work schedule (within work arguments completed true)
      = within work arguments completed true := by
  induction schedule with
  | nil => rfl
  | cons event rest ih => exact ih

variable (work arguments) in
/-- Along a schedule, the tasks complete that are done before the timer. -/
theorem run_within (schedule : Schedule) (completed : Nat → Bool) :
    ∃ expired, run work schedule (within work arguments completed false)
      = within work arguments (fun j => completed j || schedule.finished.contains j) expired := by
  induction schedule generalizing completed with
  | nil => exact ⟨false, by simp [run, Schedule.finished]⟩
  | cons event rest ih =>
    cases event with
    | completes k =>
      obtain ⟨expired, h⟩ := ih fun j => j == k || completed j
      refine ⟨expired, ?_⟩
      show run work rest (step work _ (.completes k)) = _
      rw [step_completes, h]
      congr 1
      funext j
      rw [Schedule.finished, List.contains_cons]
      cases completed j <;> cases j == k <;> rfl
    | timer =>
      refine ⟨true, ?_⟩
      show run work rest (within work arguments completed true) = _
      rw [run_expired]
      simp [Schedule.finished]

theorem unfinished_within (completed : Nat → Bool) (expired : Bool) :
    (within work arguments completed expired).unfinished
      = ((List.range arguments.length).filter fun k => !completed k).length := by
  have hanswer : ∀ e : ι × Nat, (Running.of work e.1 (completed e.2)).answer.isNone
      = !completed e.2 := by
    intro e
    cases h : completed e.2 <;> rfl
  have hnumbers : arguments.zipIdx.map Prod.snd = List.range arguments.length := by
    rw [List.zipIdx_map_snd, List.range_eq_range']
  unfold unfinished within
  rw [← List.countP_eq_length_filter, ← hnumbers, List.countP_map, List.countP_map]
  exact List.countP_congr fun e _ => by simp [hanswer]

theorem answers_within {completed : Nat → Bool} (expired : Bool)
    (h : ∀ k < arguments.length, completed k = true) :
    (within work arguments completed expired).running.filterMap Running.answer
      = arguments.map fun a => (work.perform a).1 := by
  have hanswer : ∀ e ∈ arguments.zipIdx,
      (Running.answer ∘ fun (e : ι × Nat) => Running.of work e.1 (completed e.2)) e
        = some ((fun a => (work.perform a).1) e.1) := by
    intro e he
    have hlt := (List.mem_zipIdx he).2.1
    rw [Function.comp_apply, h e.2 (by omega)]
    rfl
  have hargs : arguments = arguments.zipIdx.map Prod.fst := (List.zipIdx_map_fst ..).symm
  unfold within
  rw [List.filterMap_map, List.filterMap_congr hanswer]
  conv_rhs => rw [hargs, List.map_map]
  exact congrFun List.filterMap_eq_map _

/-- Whatever happens in a round, and in whatever order, its result is what
`gather` says. -/
theorem finish_run (work : Transition ι β) (arguments : List ι) (schedule : Schedule)
    (timeout : Value) :
    (run work schedule (start arguments)).finish timeout
      = gather schedule timeout (arguments.map fun a => (work.perform a).1) := by
  obtain ⟨expired, h⟩ := run_within work arguments schedule fun _ => false
  simp only [Bool.false_or] at h
  rw [start_eq, h]
  unfold finish gather
  rw [unfinished_within, List.length_map]
  by_cases hpending : 0 < (schedule.pending arguments.length).length
  · show (if 0 < (schedule.pending arguments.length).length then _ else _) = _
    rw [if_pos hpending, if_pos hpending]
    simp [within, Schedule.pending]
  · have hall : ∀ k < arguments.length, schedule.finished.contains k = true := by
      simpa [Schedule.pending] using hpending
    show (if 0 < (schedule.pending arguments.length).length then _ else _) = _
    rw [if_neg hpending, if_neg hpending, answers_within expired hall]

theorem run_given (work : Transition ι β) (arguments : List ι) (schedule : Schedule) :
    (run work schedule (start arguments)).given = arguments := by
  obtain ⟨expired, h⟩ := run_within work arguments schedule fun _ => false
  rw [start_eq, h]
  rfl

end Wait

/-! ## The answer of a round -/

section Gather

variable {task : ι → Except Failure β} {arguments : List ι} {schedule : Schedule}

/-- Whether all workers, of whom there are so many, complete in time. -/
def Schedule.IsComplete (schedule : Schedule) (workers : Nat) : Prop :=
  ∀ k < workers, k ∈ schedule.finished

theorem Schedule.pending_eq_nil {workers : Nat} :
    schedule.pending workers = [] ↔ schedule.IsComplete workers := by
  simp [Schedule.pending, Schedule.IsComplete]

/-- When all workers complete in time, the order in which they do has no part in
the answer. -/
theorem gather_complete (h : schedule.IsComplete arguments.length) (timeout : Value) :
    gather schedule timeout (arguments.map task) = arguments.mapM task := by
  simp [gather, Schedule.pending_eq_nil.mpr h, List.mapM_map]

theorem gather_overdue {p : Nat} (h : (schedule.pending arguments.length).length = p)
    (hp : 0 < p) (timeout : Value) :
    gather schedule timeout (arguments.map task) = abandon p arguments.length timeout := by
  simp [gather, h, hp]

theorem Pool.distribute_eq {p : Pool} (hlist : p.checkListable = .ok ⟨⟩)
    (h : arguments.length = p.size) (timeout : Value) :
    p.distribute task arguments schedule timeout
      = gather schedule timeout (arguments.map task) := by
  unfold Pool.distribute
  rw [hlist, ok_bind, if_neg (not_not.mpr h)]

theorem inOrder_isComplete (workers : Nat) : (Schedule.inOrder workers).IsComplete workers := by
  have hfinished : ∀ ks : List Nat, Schedule.finished (ks.map Event.completes) = ks := by
    intro ks
    induction ks with
    | nil => rfl
    | cons k ks ih => rw [List.map_cons, Schedule.finished, ih]
  intro k hk
  rw [Schedule.inOrder, hfinished]
  exact List.mem_range.mpr hk

end Gather

/-! ## Rounds -/

/-- Whether all workers of a turn complete in time. -/
def Turn.IsComplete {α : Type} (turn : Turn α) : Prop := turn.schedule.IsComplete turn.pool.size

/-- The turn with workers that run one after another. -/
def Turn.serially {α : Type} (turn : Turn α) : Turn α :=
  { turn with pool := ⟨.serial, turn.pool.size⟩, schedule := Schedule.inOrder turn.pool.size }

/-- What is seen of a step from outside: the answer, the model, and the count of
rounds. -/
def Step.visible {α : Type} (s : Step α) : Except Failure (Answer α) × Model α × Nat :=
  (s.outcome, s.after.model, s.after.rounds)

namespace Coordinator

variable {α : Type}

/-- There is a seed for every worker, and the workers can be listed. -/
theorem seeds_spec {c : Coordinator α} {seeds : List Value} (h : c.seeds = .ok seeds) :
    c.pool.checkListable = .ok ⟨⟩ ∧ seeds.length = c.pool.size := by
  have hworkers : c.pool.workers.length = c.pool.size := List.length_range
  unfold Coordinator.seeds at h
  obtain ⟨_, hlist, h⟩ := bind_eq_ok.mp h
  refine ⟨hlist, ?_⟩
  split at h
  · cases pure_eq_ok.mp h
    rw [List.length_map, hworkers]
  · obtain ⟨base, -, h⟩ := bind_eq_ok.mp h
    obtain ⟨first, -, h⟩ := bind_eq_ok.mp h
    rw [← (mapM_eq_ok.mp h).length_eq, hworkers]

theorem length_seeds {c : Coordinator α} {seeds : List Value} (h : c.seeds = .ok seeds) :
    seeds.length = c.pool.size :=
  (seeds_spec h).2

/-- There is an assignment for every worker, and the workers can be listed. -/
theorem handed_spec {c : Coordinator α} {n : Value} {as : List (Assignment α)}
    (h : c.handed n = .ok as) : c.pool.checkListable = .ok ⟨⟩ ∧ as.length = c.pool.size := by
  obtain ⟨passes, seeds, -, hseeds, rfl⟩ := handed_eq_ok.mp h
  obtain ⟨hlist, hlength⟩ := seeds_spec hseeds
  exact ⟨hlist, (List.length_map _).trans hlength⟩

/-- A round waits for its workers and changes nothing of what it has given them. -/
theorem dispatch_perform {c : Coordinator α} {seeds : List Value} (h : c.seeds = .ok seeds)
    (passes : Int) (work : Transition (Assignment α) β) (schedule : Schedule) :
    ∃ rounds phase, (dispatch passes (fun a => (work.perform a).1) schedule).perform c
      = (((Wait.start (seeds.map (c.assignment passes))).run work schedule).finish c.timeout,
          { c with rounds, phase }) := by
  obtain ⟨hlist, hlength⟩ := seeds_spec h
  have hcount : (seeds.map (c.assignment passes)).length = c.pool.size :=
    (List.length_map _).trans hlength
  have hassignments : c.assignments passes = .ok (seeds.map (c.assignment passes)) := by
    unfold assignments
    rw [h]
    rfl
  refine ⟨c.rounds + 1, .awaitingWorkers, ?_⟩
  unfold dispatch
  rw [Wait.finish_run, ← Pool.distribute_eq hlist hcount]
  simp only [Transition.perform_bind, Transition.perform_get, Transition.perform_outcome,
    hassignments, Transition.perform_modify, enter_perform]

/-- The results of a round are those of workers that complete in order. -/
theorem results_order {c : Coordinator α} {schedule : Schedule}
    (h : schedule.IsComplete c.pool.size) (n : Value) (task : Assignment α → Except Failure β) :
    c.results n task schedule
      = (c.withPool ⟨.serial, c.pool.size⟩).results n task (Schedule.inOrder c.pool.size) := by
  show _ = c.handed n >>= fun as =>
    Pool.distribute ⟨.serial, c.pool.size⟩ task as (Schedule.inOrder c.pool.size) c.timeout
  unfold results
  cases hhanded : c.handed n with
  | error e => rfl
  | ok as =>
    obtain ⟨hlist, hcount⟩ := handed_spec hhanded
    rw [ok_bind, ok_bind, Pool.distribute_eq hlist hcount,
      Pool.distribute_eq (p := ⟨.serial, c.pool.size⟩) hlist hcount, ← hcount,
      gather_complete (hcount ▸ h), gather_complete (inOrder_isComplete _)]

variable [Statistical α] [Seeded α]

theorem step_order {c : Coordinator α} (hidle : c.phase = .idle) {turn : Turn α}
    (h : turn.IsComplete) :
    (c.step turn).outcome = (c.step turn.serially).outcome ∧
      (c.step turn).after = (c.step turn.serially).after.withPool turn.pool ∧
      (c.step turn).after.phase = .idle := by
  obtain ⟨call, pool, schedule⟩ := turn
  have hidle' : (c.withPool pool).phase = .idle := hidle
  have hserial : (c.withPool ⟨.serial, pool.size⟩).phase = .idle := hidle
  have horder : ∀ (n : Value) {γ : Type} (task : Assignment α → Except Failure γ),
      (c.withPool pool).results n task schedule
        = (c.withPool ⟨.serial, pool.size⟩).results n task (Schedule.inOrder pool.size) :=
    fun n _ task => results_order (c := c.withPool pool) h n task
  unfold step Turn.serially
  cases call with
  | backward n selection due =>
    simp only [Call.operation, Transition.perform_map, backwardRound_perform hidle',
      backwardRound_perform hserial, horder]
    cases (c.withPool ⟨.serial, pool.size⟩).results n (fun a => a.backward selection due)
      (Schedule.inOrder pool.size) with
    | error e => exact ⟨rfl, rfl, hidle⟩
    | ok grids => exact ⟨rfl, rfl, hidle⟩
  | forward n judge =>
    simp only [Call.operation, Transition.perform_map, forwardRound_perform hidle',
      forwardRound_perform hserial, horder]
    cases (c.withPool ⟨.serial, pool.size⟩).results n Assignment.forward
      (Schedule.inOrder pool.size) with
    | error e => exact ⟨rfl, rfl, hidle⟩
    | ok samples => exact ⟨rfl, rfl, hidle⟩
  | simulate n requested =>
    have htables := results_order (c := (c.withPool pool).refresh) h n
      fun a => a.simulate requested
    simp only [Call.operation, Transition.perform_map, simulate_perform hidle',
      simulate_perform hserial, htables]
    exact ⟨rfl, rfl, hidle⟩

/-- A sequence of rounds computes what it computes with workers that complete in
order. -/
theorem steps_order {turns : List (Turn α)} (h : ∀ turn ∈ turns, turn.IsComplete)
    {c : Coordinator α} (hidle : c.phase = .idle) :
    (steps turns c).map Step.visible = (steps (turns.map Turn.serially) c).map Step.visible := by
  induction turns generalizing c with
  | nil => rfl
  | cons turn turns ih =>
    obtain ⟨houtcome, hafter, hidle'⟩ := step_order hidle (h turn (by simp))
    -- the workers of one turn have no part in the next
    have hlater : ∀ (pool : Pool) (turns : List (Turn α)) (c : Coordinator α),
        steps turns (c.withPool pool) = steps turns c := by
      intro pool turns c
      cases turns <;> rfl
    have hvisible : (c.step turn).visible = (c.step turn.serially).visible := by
      unfold Step.visible
      rw [houtcome, hafter]
      rfl
    rw [List.map_cons, steps, steps, List.map_cons, List.map_cons, hvisible,
      ih (fun turn hturn => h turn (by simp [hturn])) hidle', hafter, hlater]

end Coordinator

/-! ## Orders of completion -/

/-- What the answer of a round has to do with the order in which its tasks
complete: nothing, if all of them do so in time.  Then it holds their results in
the order of the workers, or it is the failure of the first worker that has failed.
Otherwise the number of those that have not completed is all that is said, unless the
limit of the wait is itself refused. -/
structure Wait.IsFaithful (work : Transition ι β) (arguments : List ι) (schedule : Schedule)
    (timeout : Value) (w : Wait ι β) : Prop where
  given : w.given = arguments
  results : schedule.IsComplete arguments.length → ∀ rs, w.finish timeout = .ok rs
    ↔ List.Forall₂ (fun a r => (work.perform a).1 = .ok r) arguments rs
  failure : schedule.IsComplete arguments.length → ∀ e, w.finish timeout = .error e
    ↔ ∃ earlier a later, arguments = earlier ++ a :: later ∧ (work.perform a).1 = .error e ∧
        ∀ b ∈ earlier, ∃ r, (work.perform b).1 = .ok r
  overdue : ∀ p, (schedule.pending arguments.length).length = p → 0 < p →
    w.finish timeout = checkLimit timeout >>= fun _ =>
      .error (.overdue (overdueRoundText p arguments.length timeout) (.int p))

theorem Wait.run_isFaithful (work : Transition ι β) (arguments : List ι) (schedule : Schedule)
    (timeout : Value) :
    ((Wait.start arguments).run work schedule).IsFaithful work arguments schedule timeout where
  given := run_given work arguments schedule
  results h rs := by
    rw [finish_run, gather_complete h]
    exact mapM_eq_ok
  failure h e := by
    rw [finish_run, gather_complete h]
    exact mapM_eq_error
  overdue p hpending hp := by
    rw [finish_run]
    exact gather_overdue hpending hp timeout

/-- Rounds do not depend on the order in which workers complete: not in what a wait
answers, nor in what becomes of arguments that tasks may change, and a sequence of
rounds without a timeout computes what it computes with workers that run one after
another. -/
theorem Coordinator.order_irrelevant {α : Type} [Statistical α] [Seeded α] :
    (∀ (ι β : Type) (work : Transition ι β) (arguments : List ι) (schedule : Schedule)
        (timeout : Value),
      ((Wait.start arguments).run work schedule).IsFaithful work arguments schedule timeout) ∧
    (∀ (β : Type) (work : Transition (Assignment α) β) (passes : Int) (schedule : Schedule)
        (c : Coordinator α) (seeds : List Value), c.seeds = .ok seeds →
      ∃ rounds phase, (dispatch passes (fun a => (work.perform a).1) schedule).perform c
        = (((Wait.start (seeds.map (c.assignment passes))).run work schedule).finish c.timeout,
            { c with rounds, phase })) ∧
    ∀ (turns : List (Turn α)) (c : Coordinator α), c.phase = .idle →
      (∀ turn ∈ turns, turn.IsComplete) →
      (steps turns c).map Step.visible = (steps (turns.map Turn.serially) c).map Step.visible :=
  ⟨fun _ _ => Wait.run_isFaithful, fun _ work passes schedule _ _ h =>
    dispatch_perform h passes work schedule, fun _ _ hidle h => steps_order h hidle⟩

/-- Three workers that complete from the last to the first, and then are too late. -/
theorem Coordinator.order_irrelevant_valley :
    let _ : Quantiles ℚ := ⟨id, fun level _ => level⟩
    let _ : Seeded ℚ := ⟨fun _ => .cycle 0 []⟩
    let reversed : Schedule := [.completes 2, .completes 1, .completes 0]
    let work : Transition Nat Nat := do
      modify (· + 1)
      if (← get) < 3 then return (← get) else throw .tooLarge
    let c := Coordinator.start Decisions.valleyModel ⟨.thread, 3⟩ .null .null
    let turns : List (Turn ℚ) :=
      [⟨.backward (.int 3) .all fun _ => .ok false, ⟨.thread, 3⟩, reversed⟩,
      ⟨.simulate (.int 1) [], ⟨.process, 3⟩, reversed⟩]
    ((Wait.start [0, 1, 0]).run work reversed).finish .null = .ok [1, 2, 1] ∧
      ((Wait.start [0, 2, 5]).run work reversed).finish .null = .error .tooLarge ∧
      ((Wait.start [0, 2, 5]).run work [.completes 1, .timer]).finish (.int 1)
        = .error (.overdue (overdueRoundText 2 3 (.int 1)) (.int 2)) ∧
      (∃ rounds phase, (dispatch 1 (fun a => a.backward .all fun _ => .ok false) reversed).perform c
        = (((Wait.start ([.null, .null, .null].map (c.assignment 1))).run
            (Transition.of fun a => (a.backward .all fun _ => .ok false, a)) reversed).finish .null,
            { c with rounds, phase })) ∧
      (steps turns c).map Step.visible = (steps (turns.map Turn.serially) c).map Step.visible := by
  intro _ _ reversed work c turns
  obtain ⟨hwait, hdispatch, hsteps⟩ := @Coordinator.order_irrelevant ℚ _ _
  have hreversed : reversed.IsComplete 3 := by
    intro k hk
    show k ∈ [2, 1, 0]
    simp
    omega
  refine ⟨?_, ?_, ?_, ?_, ?_⟩
  · exact ((hwait _ _ work [0, 1, 0] reversed .null).results hreversed _).mpr
      (.cons rfl (.cons rfl (.cons rfl .nil)))
  · exact ((hwait _ _ work [0, 2, 5] reversed .null).failure hreversed _).mpr
      ⟨[0], 2, [5], rfl, rfl, by simp; exact ⟨1, rfl⟩⟩
  · exact (hwait _ _ work [0, 2, 5] [.completes 1, .timer] (.int 1)).overdue 2 rfl (by decide)
  · exact hdispatch _ (Transition.of fun a => (a.backward .all fun _ => .ok false, a)) 1 reversed c
      [.null, .null, .null] rfl
  · refine hsteps turns c rfl fun turn hturn => ?_
    simp only [turns, List.mem_cons, List.not_mem_nil, or_false] at hturn
    rcases hturn with rfl | rfl
    · exact hreversed
    · exact hreversed

end Multistage
