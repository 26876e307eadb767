/-
Multistage.Proofs.Round.Seeds — no two workers draw from the same seed.

The seeds of a round are a block of consecutive numbers that begins at the base
seed plus `seedStride` times the count of rounds.  The count goes up before anything
is handed out, so a round that fails afterwards has used up its block all the same,
and a round that fails before has given no seed to anyone.  As long as no round has
more than `seedStride` workers the blocks lie one after another, so the seeds of a
sequence of calls only ever go up (`Coordinator.steps_seedNumbers`).
-/
import Multistage.Proofs.Round.Calls
import Multistage.Proofs.Round.Reachable

namespace Multistage

variable {α β : Type}

/-- A whole number, as a number. -/
theorem Value.number_of_whole? {v : Value} {i : Int} (h : v.whole? = some i) :
    v.number = .ok (.whole i) := by
  cases v with
  | bool b => cases h; rfl
  | int j => cases h; rfl
  | null | float _ | string _ | list _ | record _ => cases h

namespace Coordinator

variable {c : Coordinator α} {n : Value}

/-! ## The seeds of one round -/

/-- The seeds of a round with so many workers. -/
def seedBlock (base : Int) (rounds size : Nat) : List Int :=
  (List.range size).map fun (k : Nat) => base + rounds * seedStride + k

theorem seedBlock_increasing (base : Int) (rounds size : Nat) :
    (seedBlock base rounds size).Pairwise (· < ·) :=
  List.pairwise_map.mpr (List.pairwise_lt_range.imp fun h => by omega)

theorem le_of_mem_seedBlock {base : Int} {rounds size : Nat} {i : Int}
    (h : i ∈ seedBlock base rounds size) : base + rounds * seedStride ≤ i := by
  obtain ⟨k, -, rfl⟩ := List.mem_map.mp h
  omega

/-- A block with at most `seedStride` seeds ends before the next one. -/
theorem lt_of_mem_seedBlock {base : Int} {rounds size : Nat} (hsize : (size : Int) ≤ seedStride)
    {i : Int} (h : i ∈ seedBlock base rounds size) :
    i < base + (rounds + 1 : Nat) * seedStride := by
  obtain ⟨k, hk, rfl⟩ := List.mem_map.mp h
  have hk : k < size := List.mem_range.mp hk
  rw [Nat.cast_add, Nat.cast_one, Int.add_mul, Int.one_mul]
  omega

theorem seeds_eq {base : Int} (hseed : c.seed.whole? = some base)
    (hpool : c.pool.isListable = true) :
    c.seeds = .ok ((seedBlock base c.rounds c.pool.size).map Value.int) := by
  have hlist : c.pool.checkListable = .ok ⟨⟩ := if_pos hpool
  have hworkers : ∀ ks : List Nat,
      ks.mapM (fun k => return (← (Number.whole (base + c.rounds * seedStride)).add
          (.whole k)).toValue : Nat → Except Failure Value)
        = .ok (ks.map fun (k : Nat) => .int (base + c.rounds * seedStride + k)) :=
    fun ks => List.mapM_pure
  unfold seeds
  rw [hlist, ok_bind]
  split
  · next hnull => rw [hnull] at hseed; cases hseed
  · rw [Value.number_of_whole? hseed, ok_bind]
    show c.pool.workers.mapM _ = _
    rw [seedBlock, List.map_map]
    exact hworkers _

/-! ## What a round gives to its workers -/

/-- Every worker is given one of the seeds, in order. -/
theorem handed_seeds {base : Int} (hseed : c.seed.whole? = some base)
    (hpool : c.pool.isListable = true) {as : List (Assignment α)} (h : c.handed n = .ok as) :
    as.map Assignment.seed = (seedBlock base c.rounds c.pool.size).map Value.int := by
  obtain ⟨passes, seeds, -, hseeds, rfl⟩ := handed_eq_ok.mp h
  cases (seeds_eq hseed hpool).symm.trans hseeds
  rw [List.map_map]
  exact List.map_id _

end Coordinator

/-! ## The seeds of a sequence of calls -/

/-- What a call makes of a model out of the results of its workers: `run` has every
worker run a task. -/
def Call.conclude [Statistical α] [Seeded α] (call : Call α) (m : Model α)
    (run : ∀ {β : Type}, (Assignment α → Except Failure β) → Except Failure (List β)) :
    Except Failure (Answer α) × Model α :=
  match call with
  | backward _ selection due =>
    match run fun a => a.backward selection due with
    | .error e => (.error e, m)
    | .ok grids =>
      let later := (Model.absorb selection grids).perform m
      (later.1.map fun _ => .updated, later.2)
  | forward _ judge =>
    match run Assignment.forward with
    | .error e => (.error e, m)
    | .ok samples =>
      let later := m.withSamples samples.flatten
      ((judge later).map fun good => .judged good samples.flatten.length, later)
  | simulate _ requested =>
    ((run (fun a => a.simulate requested) >>= Table.joinAll).map .sampled, m)

theorem Call.conclude_error [Statistical α] [Seeded α] (call : Call α) (m : Model α) (e : Failure) :
    call.conclude m (fun _ => .error e) = (.error e, m) := by
  cases call <;> rfl

namespace Step

/-- The coordinator that hands out the tasks of a call: for a simulation it has taken
the configuration anew. -/
def caller (s : Step α) : Coordinator α :=
  match s.turn.call with
  | .simulate _ _ => s.before.refresh
  | _ => s.before

/-- What the workers have been given in a call; nothing, if it did not get as far as
handing out tasks. -/
def assigned (s : Step α) : List (Assignment α) :=
  match s.caller.handed s.turn.call.passes with
  | .ok as => as
  | .error _ => []

/-- The seeds that the workers have been given in a call. -/
def seeds (s : Step α) : List Value := s.assigned.map Assignment.seed

/-- The seeds that a call uses up, as numbers. -/
def seedNumbers (base : Int) (s : Step α) : List Int :=
  if s.before.dispatches s.turn.call.passes then
    Coordinator.seedBlock base s.before.rounds s.before.pool.size
  else []

theorem caller_eq (s : Step α) : ∃ snapshot, s.caller = { s.before with snapshot } := by
  unfold caller
  split
  · exact ⟨s.before.model.snapshot, rfl⟩
  · exact ⟨s.before.snapshot, rfl⟩

theorem caller_dispatches (s : Step α) (n : Value) :
    s.caller.dispatches n = s.before.dispatches n := by
  obtain ⟨snapshot, h⟩ := s.caller_eq
  rw [h]
  exact Coordinator.dispatches_snapshot ..

/-- A call that hands out tasks hands out those that are assigned, and no others. -/
theorem handed_assigned {s : Step α} (h : s.before.dispatches s.turn.call.passes = true) :
    s.caller.handed s.turn.call.passes = .ok s.assigned := by
  rw [← s.caller_dispatches] at h
  obtain ⟨as, has⟩ := Coordinator.dispatches_iff.mp h
  unfold assigned
  rw [has]

theorem handed_eq_error {s : Step α} (h : s.before.dispatches s.turn.call.passes = false) :
    ∃ e, s.caller.handed s.turn.call.passes = .error e := by
  rw [← s.caller_dispatches] at h
  cases hhanded : s.caller.handed s.turn.call.passes with
  | error e => exact ⟨e, rfl⟩
  | ok as =>
    rw [Coordinator.dispatches_iff.mpr ⟨as, hhanded⟩] at h
    cases h

theorem assigned_eq_nil {s : Step α} (h : s.before.dispatches s.turn.call.passes = false) :
    s.assigned = [] := by
  obtain ⟨e, hhanded⟩ := handed_eq_error h
  unfold assigned
  rw [hhanded]

theorem seeds_eq {s : Step α} {base : Int} (hseed : s.before.seed.whole? = some base)
    (hpool : s.before.pool.isListable = true) :
    s.seeds = (s.seedNumbers base).map Value.int := by
  unfold seeds seedNumbers
  cases h : s.before.dispatches s.turn.call.passes with
  | false =>
    rw [assigned_eq_nil h]
    rfl
  | true =>
    obtain ⟨snapshot, hcaller⟩ := s.caller_eq
    have hseed' : s.caller.seed.whole? = some base := by rw [hcaller]; exact hseed
    have hpool' : s.caller.pool.isListable = true := by rw [hcaller]; exact hpool
    rw [Coordinator.handed_seeds hseed' hpool' (handed_assigned h), hcaller]
    rfl

/-- What a call has to do with seeds: its answer and the model after it are concluded from
its tasks, run on what the workers are given; worker `k` is given the `k`-th seed of the
block that belongs to the count of rounds, and the count goes up by one; or nothing is
handed out, the call fails, and the model and the count stay. -/
structure IsSeeded [Statistical α] [Seeded α] (base : Int) (s : Step α) : Prop where
  concluded : s.before.dispatches s.turn.call.passes = true →
    (s.outcome, s.after.model) = s.turn.call.conclude s.before.model fun task =>
      s.turn.pool.distribute task s.assigned s.turn.schedule s.before.timeout
  given : s.before.dispatches s.turn.call.passes = true →
    s.seeds = (Coordinator.seedBlock base s.before.rounds s.turn.pool.size).map Value.int ∧
      s.after.rounds = s.before.rounds + 1
  spared : s.before.dispatches s.turn.call.passes = false →
    s.assigned = [] ∧ s.outcome.isOk = false ∧ s.after.model = s.before.model ∧
      s.after.rounds = s.before.rounds

end Step

namespace Coordinator

variable [Statistical α] [Seeded α] {c : Coordinator α} {base : Int} {turns : List (Turn α)}

/-- A call concludes from the results of its workers. -/
theorem step_conclude (hidle : c.phase = .idle) (turn : Turn α) :
    ((c.step turn).outcome, (c.step turn).after.model)
      = turn.call.conclude c.model fun task =>
          (c.step turn).caller.results turn.call.passes task turn.schedule := by
  have hcalled : ∀ r : Except Failure (Answer α) × Coordinator α,
      ((c.step turn).outcome, (c.step turn).after) = r →
        ((c.step turn).outcome, (c.step turn).after.model) = (r.1, r.2.model) :=
    fun r h => congrArg (fun r => (r.1, r.2.model)) h
  obtain ⟨call, pool, schedule⟩ := turn
  cases call with
  | backward n selection due =>
    refine (hcalled _ (step_backward hidle rfl)).trans ?_
    change _ = (Call.backward n selection due).conclude c.model fun task =>
      (c.step ⟨.backward n selection due, pool, schedule⟩).before.results n task schedule
    dsimp only [Call.conclude]
    cases (c.step ⟨.backward n selection due, pool, schedule⟩).before.results n
      (fun a => a.backward selection due) schedule with
    | error e => rfl
    | ok grids => rfl
  | forward n judge =>
    refine (hcalled _ (step_forward hidle rfl)).trans ?_
    change _ = (Call.forward n judge).conclude c.model fun task =>
      (c.step ⟨.forward n judge, pool, schedule⟩).before.results n task schedule
    dsimp only [Call.conclude]
    cases (c.step ⟨.forward n judge, pool, schedule⟩).before.results n Assignment.forward
      schedule with
    | error e => rfl
    | ok samples => rfl
  | simulate n requested => exact hcalled _ (step_simulate hidle rfl)

/-- A call keeps the base seed, and the count of rounds never goes down. -/
theorem step_seed (hidle : c.phase = .idle) (turn : Turn α) :
    (c.step turn).after.seed = c.seed ∧ (c.step turn).after.phase = .idle ∧
      (c.step turn).after.rounds
        = c.rounds + if (c.step turn).before.dispatches turn.call.passes then 1 else 0 := by
  obtain ⟨snapshot, model, hafter, -⟩ := step_cases hidle turn
  rw [hafter]
  exact ⟨rfl, hidle, rfl⟩

theorem step_isSeeded (hidle : c.phase = .idle) (hseed : c.seed.whole? = some base)
    {turn : Turn α} (hpool : turn.pool.isListable = true) :
    (c.step turn).IsSeeded base := by
  obtain ⟨-, -, hrounds⟩ := step_seed hidle turn
  have hconclude := step_conclude hidle turn
  obtain ⟨snapshot, hcaller⟩ := (c.step turn).caller_eq
  have hseeds : (c.step turn).seeds = ((c.step turn).seedNumbers base).map Value.int :=
    Step.seeds_eq hseed hpool
  refine ⟨fun h => ?_, fun h => ?_, fun h => ?_⟩
  · have hhanded : (c.step turn).caller.handed turn.call.passes = .ok (c.step turn).assigned :=
      Step.handed_assigned h
    simp only [results, hhanded, ok_bind] at hconclude
    rw [hconclude, hcaller]
    rfl
  · rw [hseeds, Step.seedNumbers, if_pos h, hrounds]
    exact ⟨rfl, congrArg (c.rounds + ·) (if_pos h)⟩
  · have h' : ¬(c.step turn).before.dispatches turn.call.passes = true := ne_true_of_eq_false h
    obtain ⟨e, hhanded⟩ := Step.handed_eq_error h
    have hnone : ∀ {β : Type} (task : Assignment α → Except Failure β),
        (c.step turn).caller.results turn.call.passes task turn.schedule = .error e := by
      intro β task
      unfold results
      rw [show (c.step turn).caller.handed turn.call.passes = .error e from hhanded, error_bind]
    simp only [hnone, Call.conclude_error] at hconclude
    obtain ⟨houtcome, hmodel⟩ := Prod.mk.inj hconclude
    refine ⟨Step.assigned_eq_nil h, ?_, hmodel, ?_⟩
    · rw [houtcome]
      rfl
    · rw [hrounds]
      exact congrArg (c.rounds + ·) (if_neg h')

theorem isListable_of_le_stride {pool : Pool} (h : (pool.size : Int) ≤ seedStride) :
    pool.isListable = true := by
  unfold seedStride at h
  exact decide_eq_true (by omega)

theorem steps_turn (turns : List (Turn α)) (c : Coordinator α) :
    (steps turns c).map Step.turn = turns := by
  induction turns generalizing c with
  | nil => rfl
  | cons turn turns ih => exact congrArg (turn :: ·) (ih _)

/-- From a count of rounds on, seeds only go up, and none of them is below the block
that belongs to the count. -/
theorem steps_seedNumbers (hidle : c.phase = .idle)
    (hsize : ∀ turn ∈ turns, (turn.pool.size : Int) ≤ seedStride) :
    ((steps turns c).flatMap (Step.seedNumbers base)).Pairwise (· < ·) ∧
      ∀ i ∈ (steps turns c).flatMap (Step.seedNumbers base), base + c.rounds * seedStride ≤ i := by
  -- induction on the calls; the later ones begin at the block after the one that is used up
  induction turns generalizing c with
  | nil => exact ⟨.nil, fun i hi => absurd hi List.not_mem_nil⟩
  | cons turn turns ih =>
    obtain ⟨-, hidle', hrounds⟩ := step_seed hidle turn
    obtain ⟨hlater, hfloor⟩ := ih hidle' fun turn hturn => hsize turn (List.mem_cons_of_mem _ hturn)
    rw [hrounds] at hfloor
    rw [steps, List.flatMap_cons]
    unfold Step.seedNumbers
    split
    · next h =>
      have h' : (c.step turn).before.dispatches turn.call.passes = true := h
      rw [if_pos h'] at hfloor
      have hblock : ∀ i ∈ seedBlock base c.rounds turn.pool.size,
          i < base + (c.rounds + 1 : Nat) * seedStride :=
        fun i => lt_of_mem_seedBlock (hsize turn List.mem_cons_self)
      refine ⟨List.pairwise_append.mpr ⟨seedBlock_increasing .., hlater, fun i hi j hj => ?_⟩,
        fun i hi => ?_⟩
      · exact (hblock i hi).trans_le (hfloor j hj)
      · rcases List.mem_append.mp hi with hi | hi
        · exact le_of_mem_seedBlock hi
        · have hnext := hfloor i hi
          rw [Nat.cast_add, Nat.cast_one, Int.add_mul, Int.one_mul] at hnext
          unfold seedStride at hnext ⊢
          omega
    · next h =>
      have h' : ¬(c.step turn).before.dispatches turn.call.passes = true := h
      rw [if_neg h'] at hfloor
      exact ⟨hlater, hfloor⟩

/-- No seed is used twice.  Whatever is called, and whatever fails, the seeds that the
workers of all rounds are given are distinct, as long as no round has more than
`seedStride` workers. -/
theorem steps_seeds_nodup (hidle : c.phase = .idle) (hseed : c.seed.whole? = some base)
    (hsize : ∀ turn ∈ turns, (turn.pool.size : Int) ≤ seedStride) :
    ((steps turns c).flatMap Step.seeds).Nodup ∧ ∀ s ∈ steps turns c, s.IsSeeded base := by
  have hpool : ∀ s ∈ steps turns c, s.turn.pool.isListable = true := fun s hs =>
    isListable_of_le_stride (hsize s.turn (steps_turn turns c ▸ List.mem_map_of_mem hs))
  have hsteps : ∀ s ∈ steps turns c, s.turn.pool.isListable = true →
      s.seeds = (s.seedNumbers base).map Value.int ∧ s.IsSeeded base := by
    refine forall_steps (I := fun c => c.phase = .idle ∧ c.seed.whole? = some base)
      (fun c turn hc => ?_) ⟨hidle, hseed⟩
    obtain ⟨hseed', hidle', -⟩ := step_seed hc.1 turn
    exact ⟨fun hpool => ⟨Step.seeds_eq hc.2 hpool, step_isSeeded hc.1 hc.2 hpool⟩,
      hidle', hseed' ▸ hc.2⟩
  refine ⟨?_, fun s hs => (hsteps s hs (hpool s hs)).2⟩
  rw [List.flatMap_congr fun s hs => (hsteps s hs (hpool s hs)).1, ← List.map_flatMap]
  exact ((steps_seedNumbers hidle hsize).1.imp ne_of_lt).map _ fun i j h he =>
    h (Value.int.inj he)

/-- Two workers, of whom the second is late; a round without passes; three workers; a
number of passes that is none; and one more simulation. -/
theorem steps_seeds_nodup_valley :
    let _ : Quantiles ℚ := ⟨id, fun level _ => level⟩
    let _ : Seeded ℚ := ⟨fun _ => .cycle 0 []⟩
    let backward := Call.backward (.int 2) .levelOne fun _ => .ok true
    let turns : List (Turn ℚ) := [⟨backward, ⟨.thread, 2⟩, [.completes 0, .timer]⟩,
      ⟨.forward (.int 0) fun _ => .ok true, ⟨.serial, 1⟩, [.completes 0]⟩,
      ⟨backward, ⟨.thread, 3⟩, [.completes 1, .completes 0, .completes 2]⟩,
      ⟨.simulate (.string "two") [], ⟨.thread, 2⟩, []⟩,
      ⟨.simulate (.int 1) [], ⟨.serial, 1⟩, [.completes 0]⟩]
    let c := Coordinator.start Decisions.valleyModel ⟨.serial, 1⟩ (.int 7)
    (steps turns c).map (fun s => (s.outcome.isOk, s.seeds))
        = [(false, [.int 7, .int 8]), (true, [.int 1000010]),
          (true, [.int 2000013, .int 2000014, .int 2000015]), (false, []),
          (true, [.int 3000016])] ∧
      c.phase = .idle ∧ c.seed.whole? = some 7 ∧
      (∀ turn ∈ turns, (turn.pool.size : Int) ≤ seedStride) ∧
      ((steps turns c).flatMap Step.seeds).Nodup ∧ ∀ s ∈ steps turns c, s.IsSeeded 7 := by
  intro _ _ backward turns c
  have hsize : ∀ turn ∈ turns, (turn.pool.size : Int) ≤ seedStride := by
    decide
  exact ⟨by decide +kernel, rfl, rfl, hsize, steps_seeds_nodup rfl rfl hsize⟩

end Coordinator

end Multistage
