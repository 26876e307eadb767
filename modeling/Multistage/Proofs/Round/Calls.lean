/-
Multistage.Proofs.Round.Calls — rounds, and sequences of them.

A round is decided by what its workers return.  That is fixed before anything
else happens (`Coordinator.results`): it rests on the configuration and the
stores that are handed out, on the seeds, and on the schedule.  Unless there is a
result of every worker, only the count of rounds changes; otherwise the model
goes on from the results alone.  `backwardRound_perform`, `forwardRound_perform`
and `simulate_perform` say so for the three kinds of rounds, and whatever is
proved of rounds rests on these equations.

`Coordinator.steps` are the calls of a sequence, one after another, whether they
succeed or fail, each with the workers that are available at the time.
-/
import Multistage.Proofs.Policy.FirstStage
import Multistage.Round.Coordinator

namespace Multistage

variable {α β γ : Type}

/-! ## What becomes of a model -/

namespace Model

/-- What a backward round makes of a model: the workers' cuts are merged, the
stage problems are loaded, the first stage is solved, and the bound is set. -/
def absorb [Scalar α] (selection : Selection) (grids : List (Grid (Delta α))) :
    Transition (Model α) Unit := do
  mergeAll grids
  rebound selection false

/-- What a forward round makes of a model: the confidence interval of its
samples is kept. -/
def withSamples [Statistical α] (m : Model α) (samples : List α) : Model α :=
  let interval := (confidenceInterval samples m.configuration.confidence).map Prod.snd
  { m with figures := m.figures.withInterval interval }

theorem setInterval_perform [Statistical α] (m : Model α) (samples : List α) :
    (setInterval samples).perform m
      = (.ok ((confidenceInterval samples m.configuration.confidence).map Prod.snd),
          m.withSamples samples) :=
  rfl

end Model

/-! ## Results -/

/-- What the tasks of a pool return, if all of them do. -/
theorem Pool.distribute_eq_ok {ι : Type} {p : Pool} {task : ι → Except Failure β}
    {arguments : List ι} {schedule : Schedule} {timeout : Value} {rs : List β}
    (h : p.distribute task arguments schedule timeout = .ok rs) :
    List.Forall₂ (fun a r => task a = .ok r) arguments rs := by
  obtain ⟨_, -, h⟩ := bind_eq_ok.mp h
  obtain ⟨-, h⟩ := guard_eq_ok.mp h
  unfold gather at h
  dsimp only at h
  split at h
  · obtain ⟨_, -, h⟩ := bind_eq_ok.mp h
    cases h
  · exact List.forall₂_map_left_iff.mp (mapM_eq_ok.mp h)

namespace Coordinator

/-- What the workers are given in a round of so many passes that is called now. -/
def handed (c : Coordinator α) (n : Value) : Except Failure (List (Assignment α)) := do
  c.assignments (← c.shareOf n)

/-- What the workers return in a round that is called now. -/
def results (c : Coordinator α) (n : Value) (task : Assignment α → Except Failure β)
    (schedule : Schedule) : Except Failure (List β) := do
  c.pool.distribute task (← c.handed n) schedule c.timeout

/-- Whether a round that is called now gets as far as handing out tasks. -/
def dispatches (c : Coordinator α) (n : Value) : Bool := (c.handed n).isOk

/-- The coordinator after a round that leaves its model alone. -/
def counted (c : Coordinator α) (n : Value) : Coordinator α :=
  { c with rounds := c.rounds + if c.dispatches n then 1 else 0 }

@[simp] theorem counted_model (c : Coordinator α) (n : Value) : (c.counted n).model = c.model :=
  rfl

@[simp] theorem counted_phase (c : Coordinator α) (n : Value) : (c.counted n).phase = c.phase :=
  rfl

/-- Every worker is given its share of the passes, and a seed of its own. -/
theorem handed_eq_ok {c : Coordinator α} {n : Value} {as : List (Assignment α)} :
    c.handed n = .ok as ↔ ∃ passes seeds, c.shareOf n = .ok passes ∧ c.seeds = .ok seeds ∧
      as = seeds.map (c.assignment passes) := by
  unfold handed assignments
  simp only [bind_eq_ok, pure_eq_ok]
  constructor
  · rintro ⟨passes, hshare, seeds, hseeds, rfl⟩
    exact ⟨passes, seeds, hshare, hseeds, rfl⟩
  · rintro ⟨passes, seeds, hshare, hseeds, rfl⟩
    exact ⟨passes, hshare, seeds, hseeds, rfl⟩

theorem dispatches_iff {c : Coordinator α} {n : Value} :
    c.dispatches n = true ↔ ∃ as, c.handed n = .ok as := by
  unfold dispatches
  cases c.handed n with
  | error e => simp [Except.isOk, Except.toBool]
  | ok as => simp [Except.isOk, Except.toBool]

/-- The configuration does not decide whether a round hands out tasks. -/
theorem dispatches_snapshot (c : Coordinator α) (snapshot : Configuration α) (n : Value) :
    { c with snapshot }.dispatches n = c.dispatches n := by
  rw [Bool.eq_iff_iff, dispatches_iff, dispatches_iff]
  simp only [handed_eq_ok]
  constructor
  · rintro ⟨_, passes, seeds, hshare, hseeds, -⟩
    exact ⟨_, passes, seeds, hshare, hseeds, rfl⟩
  · rintro ⟨_, passes, seeds, hshare, hseeds, -⟩
    exact ⟨_, passes, seeds, hshare, hseeds, rfl⟩

theorem counted_refresh (c : Coordinator α) (n : Value) :
    c.refresh.counted n = { c.counted n with snapshot := c.model.snapshot } := by
  unfold counted
  rw [show c.refresh.dispatches n = c.dispatches n from dispatches_snapshot ..]
  rfl

/-- The results of a round are those of the tasks, one for every worker. -/
theorem results_spec {c : Coordinator α} {n : Value} {task : Assignment α → Except Failure β}
    {schedule : Schedule} {rs : List β} (h : c.results n task schedule = .ok rs) :
    ∃ passes seeds, c.shareOf n = .ok passes ∧ c.seeds = .ok seeds ∧
      List.Forall₂ (fun seed r => task (c.assignment passes seed) = .ok r) seeds rs := by
  obtain ⟨as, has, h⟩ := bind_eq_ok.mp h
  obtain ⟨passes, seeds, hshare, hseeds, rfl⟩ := handed_eq_ok.mp has
  exact ⟨passes, seeds, hshare, hseeds,
    List.forall₂_map_left_iff.mp (Pool.distribute_eq_ok h)⟩

/-! ## One round -/

@[simp] theorem enter_perform (phase : Phase) (c : Coordinator α) :
    (enter phase).perform c = (.ok ⟨⟩, { c with phase }) :=
  rfl

@[simp] theorem onModel_perform (op : Transition (Model α) β) (c : Coordinator α) :
    (onModel op).perform c
      = ((op.perform c.model).1, { c with model := (op.perform c.model).2 }) :=
  rfl

theorem share_perform (n : Value) (c : Coordinator α) :
    (share n).perform c = (c.shareOf n, c) :=
  rfl

/-- A round first collects results and goes on with them; without them only the
count of rounds has changed. -/
theorem round_perform {c : Coordinator α} (hidle : c.phase = .idle) (n : Value)
    (task : Assignment α → Except Failure β) (schedule : Schedule)
    (body : List β → Transition (Coordinator α) γ) :
    (share n >>= fun passes => round (dispatch passes task schedule >>= body)).perform c
      = match c.results n task schedule with
        | .error e => (.error e, c.counted n)
        | .ok rs =>
          let later := (body rs).perform { c.counted n with phase := .awaitingWorkers }
          (later.1, { later.2 with phase := .idle }) := by
  rw [Transition.perform_bind, share_perform]
  unfold results counted dispatches handed
  cases c.shareOf n with
  | error e => rfl
  | ok passes =>
    dsimp only
    unfold round dispatch
    rw [Transition.perform_of, ok_bind]
    cases hassignments : c.assignments passes with
    | error e =>
      simp only [Transition.perform_bind, Transition.perform_get, Transition.perform_outcome,
        hassignments]
      rw [← hidle]
      rfl
    | ok assignments =>
      simp only [Transition.perform_bind, Transition.perform_get, Transition.perform_outcome,
        hassignments, Transition.perform_modify, enter_perform, ok_bind]
      cases c.pool.distribute task assignments schedule c.timeout with
      | error e =>
        rw [← hidle]
        rfl
      | ok rs => rfl

section Rounds

variable [Statistical α] [Seeded α]

/-- A backward round absorbs the results of its workers. -/
theorem backwardRound_perform {c : Coordinator α} (hidle : c.phase = .idle) (n : Value)
    (selection : Selection) (due : Nat → Except Failure Bool) (schedule : Schedule) :
    (backwardRound n selection due schedule).perform c
      = match c.results n (fun a => a.backward selection due) schedule with
        | .error e => (.error e, c.counted n)
        | .ok grids =>
          let later := (Model.absorb selection grids).perform c.model
          (later.1, { c.counted n with model := later.2 }) := by
  unfold backwardRound
  rw [round_perform hidle]
  cases c.results n (fun a => a.backward selection due) schedule with
  | error e => rfl
  | ok grids =>
    unfold Model.absorb Model.rebound Model.updateBound
    simp only [Transition.perform_bind, Transition.perform_discard, enter_perform,
      onModel_perform, counted_model]
    rcases (Model.mergeAll grids).perform c.model with ⟨e | u, m⟩
    · simp [hidle]
    · dsimp only
      rcases (Model.reload selection false).perform m with ⟨e | u, m⟩
      · simp [hidle]
      · dsimp only
        rcases Model.solveFirstStage.perform m with ⟨e | solutions, m⟩
        · simp [hidle, Except.map]
        · simp [hidle, Except.map]

/-- A forward round keeps the confidence interval of the samples of its workers,
and judges the model with it. -/
theorem forwardRound_perform {c : Coordinator α} (hidle : c.phase = .idle) (n : Value)
    (judge : Model α → Except Failure Bool) (schedule : Schedule) :
    (forwardRound n judge schedule).perform c
      = match c.results n Assignment.forward schedule with
        | .error e => (.error e, c.counted n)
        | .ok samples =>
          let later := c.model.withSamples samples.flatten
          ((judge later).map fun good => (good, samples.flatten.length),
            { c.counted n with model := later }) := by
  unfold forwardRound
  rw [← bind_assoc, Transition.perform_bind, round_perform hidle]
  cases c.results n Assignment.forward schedule with
  | error e => rfl
  | ok samples =>
    simp only [Transition.perform_bind, Transition.perform_discard, enter_perform,
      onModel_perform, counted_model, Model.setInterval_perform, Except.map,
      Transition.perform_pure, Transition.perform_get, Transition.perform_outcome, ← hidle]
    cases judge (c.model.withSamples samples.flatten) with
    | error e => rfl
    | ok good => rfl

/-- A simulation leaves the model alone. -/
theorem simulate_perform {c : Coordinator α} (hidle : c.phase = .idle) (n : Value)
    (requested : List Value) (schedule : Schedule) :
    (simulate n requested schedule).perform c
      = (c.refresh.results n (fun a => a.simulate requested) schedule >>= Table.joinAll,
          c.refresh.counted n) := by
  have hidle' : c.refresh.phase = .idle := hidle
  unfold simulate
  rw [Transition.perform_bind, Transition.perform_modify]
  dsimp only
  rw [round_perform hidle']
  cases c.refresh.results n (fun a => a.simulate requested) schedule with
  | error e => rfl
  | ok tables =>
    simp only [Transition.perform_bind, enter_perform, Transition.perform_outcome, ← hidle']
    rfl

end Rounds

end Coordinator

/-! ## Sequences of calls -/

/-- A call of a coordinator. -/
inductive Call (α : Type) where
  | backward (n : Value) (selection : Selection) (due : Nat → Except Failure Bool)
  | forward (n : Value) (judge : Model α → Except Failure Bool)
  | simulate (n : Value) (requested : List Value)

/-- What a call answers. -/
inductive Answer (α : Type) where
  | updated
  | judged (good : Bool) (passes : Nat)
  | sampled (table : Table (Entry α))

namespace Call

/-- The number of passes that a call asks for. -/
def passes : Call α → Value
  | backward n _ _ => n
  | forward n _ => n
  | simulate n _ => n

/-- The operation that a call stands for. -/
def operation [Statistical α] [Seeded α] (call : Call α) (schedule : Schedule) :
    Transition (Coordinator α) (Answer α) :=
  match call with
  | backward n selection due =>
    (fun _ => .updated) <$> Coordinator.backwardRound n selection due schedule
  | forward n judge =>
    (fun (good, passes) => .judged good passes) <$> Coordinator.forwardRound n judge schedule
  | simulate n requested => .sampled <$> Coordinator.simulate n requested schedule

end Call

/-- A call at its place in a sequence: the workers that are available for it, and
how they complete. -/
structure Turn (α : Type) where
  call : Call α
  pool : Pool
  schedule : Schedule

/-- A call that has been made. -/
structure Step (α : Type) where
  turn : Turn α
  before : Coordinator α
  outcome : Except Failure (Answer α)
  after : Coordinator α

namespace Coordinator

variable [Statistical α] [Seeded α]

/-- The coordinator when its turn comes. -/
def withPool (c : Coordinator α) (pool : Pool) : Coordinator α := { c with pool }

/-- A turn of a coordinator. -/
def step (c : Coordinator α) (turn : Turn α) : Step α where
  turn := turn
  before := c.withPool turn.pool
  outcome := ((turn.call.operation turn.schedule).perform (c.withPool turn.pool)).1
  after := ((turn.call.operation turn.schedule).perform (c.withPool turn.pool)).2

section Steps

variable {c : Coordinator α} {turn : Turn α} {n : Value}

theorem step_backward {selection : Selection} {due : Nat → Except Failure Bool}
    (hidle : c.phase = .idle) (hcall : turn.call = .backward n selection due) :
    ((c.step turn).outcome, (c.step turn).after)
      = match (c.step turn).before.results n (fun a => a.backward selection due) turn.schedule with
        | .error e => (.error e, (c.step turn).before.counted n)
        | .ok grids =>
          let later := (Model.absorb selection grids).perform c.model
          (later.1.map fun _ => .updated,
            { (c.step turn).before.counted n with model := later.2 }) := by
  have hbefore : (c.withPool turn.pool).phase = .idle := hidle
  unfold step
  rw [hcall]
  simp only [Call.operation, Transition.perform_map, backwardRound_perform hbefore]
  cases (c.withPool turn.pool).results n (fun a => a.backward selection due) turn.schedule with
  | error e => rfl
  | ok grids => rfl

theorem step_forward {judge : Model α → Except Failure Bool}
    (hidle : c.phase = .idle) (hcall : turn.call = .forward n judge) :
    ((c.step turn).outcome, (c.step turn).after)
      = match (c.step turn).before.results n Assignment.forward turn.schedule with
        | .error e => (.error e, (c.step turn).before.counted n)
        | .ok samples =>
          let later := c.model.withSamples samples.flatten
          ((judge later).map fun good => .judged good samples.flatten.length,
            { (c.step turn).before.counted n with model := later }) := by
  have hbefore : (c.withPool turn.pool).phase = .idle := hidle
  unfold step
  rw [hcall]
  simp only [Call.operation, Transition.perform_map, forwardRound_perform hbefore]
  cases (c.withPool turn.pool).results n Assignment.forward turn.schedule with
  | error e => rfl
  | ok samples =>
    dsimp only
    show (((judge (c.model.withSamples samples.flatten)).map _).map _, _) = _
    cases judge (c.model.withSamples samples.flatten) with
    | error e => rfl
    | ok good => rfl

theorem step_simulate {requested : List Value}
    (hidle : c.phase = .idle) (hcall : turn.call = .simulate n requested) :
    ((c.step turn).outcome, (c.step turn).after)
      = (((c.step turn).before.refresh.results n (fun a => a.simulate requested) turn.schedule
            >>= Table.joinAll).map .sampled,
          { (c.step turn).before.counted n with snapshot := c.model.snapshot }) := by
  have hbefore : (c.withPool turn.pool).phase = .idle := hidle
  unfold step
  rw [hcall]
  simp only [Call.operation, Transition.perform_map, simulate_perform hbefore, counted_refresh]
  rfl

/-- A backward round that succeeds has absorbed the results of its workers. -/
theorem step_backward_ok {selection : Selection} {due : Nat → Except Failure Bool}
    (hidle : c.phase = .idle) (hcall : turn.call = .backward n selection due) {a : Answer α}
    (hok : (c.step turn).outcome = .ok a) :
    ∃ grids, (c.step turn).before.results n (fun a => a.backward selection due) turn.schedule
        = .ok grids ∧
      (Model.absorb selection grids).perform c.model = (.ok ⟨⟩, (c.step turn).after.model) := by
  have hstep := step_backward hidle hcall
  cases hresults : (c.step turn).before.results n (fun a => a.backward selection due)
    turn.schedule with
  | error e =>
    rw [hresults, hok] at hstep
    cases hstep
  | ok grids =>
    rw [hresults] at hstep
    obtain ⟨houtcome, hafter⟩ := Prod.mk.inj hstep
    have hmodel : (c.step turn).after.model = ((Model.absorb selection grids).perform c.model).2 :=
      congrArg Coordinator.model hafter
    rw [hok] at houtcome
    refine ⟨grids, rfl, ?_⟩
    rw [hmodel]
    cases hrun : ((Model.absorb selection grids).perform c.model).1 with
    | error e =>
      rw [hrun] at houtcome
      cases houtcome
    | ok u => exact Prod.ext hrun rfl

/-- What a call can do: it is counted if it gets as far as handing out tasks, the
workers may be given the configuration anew, and the model may have taken in the samples
of a forward round or what the workers of a backward round have found. -/
theorem step_cases (hidle : c.phase = .idle) (turn : Turn α) :
    ∃ snapshot model, (c.step turn).after
        = { (c.step turn).before.counted turn.call.passes with snapshot, model } ∧
      (snapshot = c.snapshot ∨ snapshot = c.model.snapshot) ∧
      (model = c.model ∨ (∃ samples, model = c.model.withSamples samples) ∨
        ∃ n selection due grids, turn.call = .backward n selection due ∧
          (c.step turn).before.results n (fun a => a.backward selection due) turn.schedule
            = .ok grids ∧
          model = ((Model.absorb selection grids).perform c.model).2) := by
  cases hcall : turn.call with
  | backward n selection due =>
    have hstep := congrArg Prod.snd (step_backward hidle hcall)
    cases hresults : (c.step turn).before.results n (fun a => a.backward selection due)
      turn.schedule with
    | error e =>
      rw [hresults] at hstep
      exact ⟨_, _, hstep, .inl rfl, .inl rfl⟩
    | ok grids =>
      rw [hresults] at hstep
      exact ⟨_, _, hstep, .inl rfl, .inr (.inr ⟨n, selection, due, grids, rfl, hresults, rfl⟩)⟩
  | forward n judge =>
    have hstep := congrArg Prod.snd (step_forward hidle hcall)
    cases hresults : (c.step turn).before.results n Assignment.forward turn.schedule with
    | error e =>
      rw [hresults] at hstep
      exact ⟨_, _, hstep, .inl rfl, .inl rfl⟩
    | ok samples =>
      rw [hresults] at hstep
      exact ⟨_, _, hstep, .inl rfl, .inr (.inl ⟨_, rfl⟩)⟩
  | simulate n requested =>
    exact ⟨_, _, congrArg Prod.snd (step_simulate hidle hcall), .inr rfl, .inl rfl⟩

/-- Every call leaves the coordinator idle, and is counted if it gets as far as
handing out tasks. -/
theorem step_counted (hidle : c.phase = .idle) (turn : Turn α) :
    (c.step turn).after.phase = .idle ∧
      (c.step turn).after.rounds = (c.step turn).before.rounds
        + if (c.step turn).before.dispatches turn.call.passes then 1 else 0 := by
  obtain ⟨snapshot, model, hafter, -⟩ := step_cases hidle turn
  rw [hafter]
  exact ⟨hidle, rfl⟩

end Steps

/-- The turns of a sequence, one after another. -/
def steps : List (Turn α) → Coordinator α → List (Step α)
  | [], _ => []
  | turn :: rest, c => c.step turn :: steps rest (c.step turn).after

/-- What every turn keeps holds all the time. -/
theorem forall_steps {I : Coordinator α → Prop} {P : Step α → Prop}
    (hstep : ∀ c turn, I c → P (c.step turn) ∧ I (c.step turn).after) :
    ∀ {turns : List (Turn α)} {c : Coordinator α}, I c → ∀ s ∈ steps turns c, P s
  | [], _, _, s, hs => absurd hs List.not_mem_nil
  | turn :: rest, c, hc, s, hs => by
    obtain ⟨hpost, hafter⟩ := hstep c turn hc
    rcases List.mem_cons.mp hs with rfl | hs
    · exact hpost
    · exact forall_steps hstep hafter s hs

end Coordinator

end Multistage
