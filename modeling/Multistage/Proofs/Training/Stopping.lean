/-
Multistage.Proofs.Training.Stopping — where a training run stops, and why.

Options that have been checked make a plan whose decisions never fail, as long as the
counts among them are whole.  A run on such a plan follows its course
(`Proofs.Training.Course`) unless a round of it fails: what it writes down about a round
can be written, because a backward round that succeeds leaves a bound, and an interval that
has been computed has two ends.  So it stops where the course ends, and says why
(`Model.train_stops`).
-/
import Multistage.Proofs.Training.Course
import Multistage.Random.Generator
import Multistage.Statistics.StudentT

namespace Multistage

/-! ## Periods -/

namespace Value

variable {v : Value} {n : Nat}

theorem eq_of_whole? (h : v.whole? = some (n : Int)) :
    v = .int n ∨ ∃ b : Bool, v = .bool b ∧ n = b.toNat := by
  cases v with
  | int i => exact .inl (congrArg int (Option.some.inj h))
  | bool b =>
    refine .inr ⟨b, rfl, ?_⟩
    have hb : (if b then 1 else 0 : Int) = n := Option.some.inj h
    cases b
    · exact Int.natCast_eq_zero.mp hb.symm
    · exact Nat.cast_eq_one.mp hb.symm
  | null | float _ | string _ | list _ | record _ => cases h

/-- A whole period from one on divides a count or does not. -/
theorem divides_of_whole? (h : v.whole? = some (n : Int)) (hn : 0 < n) (k : Nat) :
    v.divides k = .ok (decide (n ∣ k)) := by
  rcases eq_of_whole? h with rfl | ⟨b, rfl, rfl⟩
  · have hne : (n : Int) ≠ 0 := by omega
    refine (if_neg hne).trans (congrArg Except.ok (decide_eq_decide.mpr ?_))
    rw [← Int.natCast_dvd_natCast, Int.dvd_iff_emod_eq_zero]
  · cases b with
    | false => cases hn
    | true => simp [divides]

/-- With a whole period something is due at its multiples, and never if it is zero. -/
theorem isDue_of_whole? (h : v.whole? = some (n : Int)) (k : Nat) :
    v.isDue k = .ok (decide (0 < n ∧ n ∣ k)) := by
  rcases Nat.eq_zero_or_pos n with rfl | hn
  · rcases eq_of_whole? h with rfl | ⟨b, rfl, hb⟩
    · rfl
    · cases b with
      | false => rfl
      | true => cases hb
  · have hpositive : v.isAtMost 0 = .ok false := by
      rcases eq_of_whole? h with rfl | ⟨b, rfl, rfl⟩
      · exact congrArg Except.ok (decide_eq_false (by omega))
      · cases b with
        | false => cases hn
        | true => rfl
    have hdue : v.isDue k = v.divides k := by
      unfold isDue
      rw [hpositive]
      rcases eq_of_whole? h with rfl | ⟨b, rfl, -⟩ <;> rfl
    rw [hdue, divides_of_whole? h hn, decide_eq_decide.mpr (and_iff_right hn)]

theorem toInt_of_whole? (h : v.whole? = some (n : Int)) : v.toInt = .ok (n : Int) := by
  rcases eq_of_whole? h with rfl | ⟨b, rfl, rfl⟩
  · rfl
  · cases b <;> rfl

theorem readRounds_of_whole? (h : v.whole? = some (n : Int)) : Plan.readRounds v = .ok n := by
  rcases eq_of_whole? h with rfl | ⟨b, rfl, rfl⟩
  · rfl
  · cases b <;> rfl

end Value

/-! ## Plans of checked options -/

theorem Selection.parse_name (s : Selection) : parse (.string s.name) = .ok s := by
  have hkey : (Text.lower (Text.trim (Value.string s.name).text)).map
      (fun c => if c = '-' then '_' else c) = s.name := by
    cases s <;> decide +kernel
  unfold parse
  dsimp only
  rw [hkey]
  cases s <;> rfl

/-- Options that pass all checks are kept as they were given, except that the selection is
called by its name; and the rounds from one report to the next are counted from one on. -/
theorem Options.validated_spec {given o : Options} (h : given.validated = .ok o) :
    (∃ selection : Selection, o = { given with cutSelection := .string selection.name }) ∧
      ∃ i, given.logFrequency.toInt = .ok i ∧ 1 ≤ i := by
  unfold validated at h
  obtain ⟨_, _, h⟩ := bind_eq_ok.mp h
  obtain ⟨_, _, h⟩ := bind_eq_ok.mp h
  obtain ⟨_, _, h⟩ := bind_eq_ok.mp h
  obtain ⟨_, _, h⟩ := bind_eq_ok.mp h
  obtain ⟨_, _, h⟩ := bind_eq_ok.mp h
  obtain ⟨_, hlog, h⟩ := bind_eq_ok.mp h
  obtain ⟨_, _, h⟩ := bind_eq_ok.mp h
  obtain ⟨i, hi, hlog⟩ := bind_eq_ok.mp hlog
  refine ⟨?_, i, hi, ?_⟩
  · split at h
    · obtain ⟨selection, _, h⟩ := bind_eq_ok.mp h
      exact ⟨selection, (pure_eq_ok.mp h).symm⟩
    · obtain ⟨_, _, h⟩ := bind_eq_ok.mp h
      obtain ⟨selection, _, h⟩ := bind_eq_ok.mp h
      exact ⟨selection, (pure_eq_ok.mp h).symm⟩
  · by_contra hlt
    rw [if_pos (not_le.mp hlt)] at hlog
    cases hlog

namespace Plan

/-- The plan of options that have been checked. -/
theorem ofOptions_of_validated {given o : Options} (h : given.validated = .ok o) :
    ∃ plan, ofOptions o = .ok plan ∧ plan.logLevel = readLevel o.logLevel ∧
      plan.rounds = readRounds o.maxIterations ∧ plan.seed = o.seed ∧ plan.timeout = o.timeout ∧
      plan.tests = o.convergenceFrequency.isDue ∧ plan.reports = o.logFrequency.divides ∧
      plan.line = HistoryEntry.text ∧ plan.isOver = reaches o.timeLimit := by
  obtain ⟨⟨selection, rfl⟩, -⟩ := Options.validated_spec h
  unfold ofOptions
  rw [Selection.parse_name, ok_bind]
  exact ⟨_, rfl, rfl, rfl, rfl, rfl, rfl, rfl, rfl, rfl⟩

end Plan

/-! ## Lines that can be written -/

/-- Figures whose interval has two ends that can be shown.  One that has been computed has
them, also while there is none; one that a caller has entered may not. -/
def Figures.HasEnds (f : Figures Float) : Prop :=
  ∃ lower upper rest, f.intervalValues = lower :: upper :: rest ∧
    (∃ text, HistoryEntry.figure lower = .ok text) ∧ ∃ text, HistoryEntry.figure upper = .ok text

theorem HistoryEntry.figure_float (x : Float) : ∃ text, figure (.float x) = .ok text :=
  ⟨_, rfl⟩

theorem Figures.hasEnds_of_computed {f : Figures Float} (h : f.entered.interval = none) :
    f.HasEnds := by
  have hvalues : f.intervalValues = ends f.interval := by rw [intervalValues, h, Option.getD_none]
  unfold HasEnds
  rw [hvalues]
  cases f.interval with
  | none => exact ⟨_, _, [], rfl, HistoryEntry.figure_float _, HistoryEntry.figure_float _⟩
  | some i => exact ⟨_, _, [], rfl, HistoryEntry.figure_float _, HistoryEntry.figure_float _⟩

theorem Model.Lasts.hasEnds : Model.Lasts fun m : Model Float => m.figures.HasEnds where
  stores := fun hm _ _ => hm
  problems := fun _ hm _ => hm
  solutions := fun _ hm => hm
  bound := fun _ hm => hm
  interval := fun _ _ => Figures.hasEnds_of_computed rfl

/-- Figures with a bound that has been computed. -/
structure Figures.HasBound {α : Type} (f : Figures α) : Prop where
  computed : f.bound.isSome
  standing : f.entered.bound = none

/-- A round with a computed bound has a line. -/
theorem HistoryEntry.text_eq_ok {e : HistoryEntry Float} (hbound : e.figures.HasBound)
    (hends : e.figures.HasEnds) : ∃ text, e.text = .ok text := by
  obtain ⟨lower, upper, rest, hvalues, ⟨low, hlow⟩, high, hhigh⟩ := hends
  obtain ⟨b, hb⟩ := Option.isSome_iff_exists.mp hbound.computed
  have hvalue : e.figures.boundValue = .float b := by
    rw [Figures.boundValue, hbound.standing, hb]
    rfl
  obtain ⟨bound, hshown⟩ := figure_float b
  unfold text
  simp only [hvalues, hvalue, hshown, pure_bind, ok_bind, hlow, hhigh]
  exact ⟨_, rfl⟩

/-- Absorbing the results of workers leaves a bound. -/
theorem Model.absorb_hasBound {α : Type} [Scalar α] {m m' : Model α} {selection : Selection}
    {grids : List (Grid (Delta α))}
    (h : (Model.absorb selection grids).perform m = (.ok ⟨⟩, m')) : m'.figures.HasBound := by
  obtain ⟨-, m₁, -, h⟩ := Transition.perform_bind_eq_ok.mp h
  obtain ⟨-, m₂, -, h⟩ := Transition.perform_bind_eq_ok.mp h
  obtain ⟨solutions, -, rfl⟩ := Model.updateBound_eq_ok h
  exact ⟨rfl, rfl⟩

namespace Course

/-- After a round whose calls succeed there is a bound: that of the backward round, which a
forward round leaves alone. -/
theorem after_hasBound {α : Type} [Statistical α] [Seeded α] {r : Course α} {k : Nat}
    (hidle : r.start.phase = .idle) (h : ∀ s ∈ r.calls (k + 1), s.Succeeds) :
    (r.after (k + 1)).model.figures.HasBound := by
  have hphase := (after_idle hidle k).1
  obtain ⟨a, hfirst⟩ := h _ List.mem_cons_self
  obtain ⟨grids, -, habsorb⟩ := Coordinator.step_backward_ok hphase rfl hfirst
  have hbound := Model.absorb_hasBound habsorb
  unfold after
  cases r.tests (k + 1) with
  | false => exact hbound
  | true =>
    have hphase' := (Coordinator.step_counted hphase (r.plan.backward r.start.pool)).1
    obtain ⟨snapshot, model, hafter, -, hmodel⟩ :=
      Coordinator.step_cases hphase' (r.plan.forward r.start.pool)
    show (Coordinator.step _ (r.plan.forward r.start.pool)).after.model.figures.HasBound
    rw [hafter]
    rcases hmodel with rfl | ⟨samples, rfl⟩ | ⟨n, selection, due, grids, hcall, -, -⟩
    · exact hbound
    · exact ⟨hbound.computed, hbound.standing⟩
    · cases hcall

/-- A round whose calls succeed can be written down, and so it gets done, if the plan never
fails to decide. -/
theorem isDone_of_succeeds [Statistical Float] [Seeded Float] {r : Course Float} {k : Nat}
    (hidle : r.start.phase = .idle) (hends : r.start.model.figures.HasEnds)
    (hline : r.plan.line = HistoryEntry.text)
    (htests : r.plan.tests (k + 1) = .ok (r.tests (k + 1)))
    (hreports : ∃ due, r.plan.reports (k + 1) = .ok due)
    (h : ∀ s ∈ r.calls (k + 1), s.Succeeds) : r.IsDone (k + 1) := by
  have hstart : (r.after 0).model.figures.HasEnds := hends
  have hkept := after_lasts hidle .hasEnds hstart (k + 1)
  rw [Nat.zero_add] at hkept
  exact ⟨h, htests, hreports, hline ▸ HistoryEntry.text_eq_ok (after_hasBound hidle h) hkept⟩

end Course

/-! ## Training -/

/-- Where a training run stops, and why, whatever the quantiles and the draws are.  Checked
options with whole counts make a plan.  The rounds of its course are backward rounds, with a
forward round right after each one whose number the frequency divides, if it is positive.  As
long as no round that is reached raises anything, a run ends with the first round after which
the policy has been found good enough or the time limit is reached, or else with the last one
allowed; its result says which of these it was and is true to the rounds; and the coordinator
has been through one round for each of them and one for each test.  Training answers with that
result, unless the log cannot be set up: then it raises that before the first round. -/
theorem Model.train_stops (studentQuantile : Float → Nat → Float)
    (stream : List UInt32 → Draws Float) {given o : Options} (ho : given.validated = .ok o)
    {limit frequency every : Nat} (hlimit : o.maxIterations.whole? = some (limit : Int))
    (hfrequency : o.convergenceFrequency.whole? = some (frequency : Int))
    (hevery : o.logFrequency.whole? = some (every : Int)) (m : Model Float)
    (hends : m.figures.HasEnds) (pool : Pool) (hpool : pool.isListable = true)
    (clock : Nat → Float) :
    let _ := Statistical.ofQuantile studentQuantile
    let _ : Seeded Float := ⟨stream⟩
    ∃ plan, Plan.ofOptions o = .ok plan ∧
      (∀ e, Plan.readLevel o.logLevel = .error e →
        (train plan pool clock).perform m = (.error e, m)) ∧
      let r : Course Float := ⟨plan, .start m pool o.seed o.timeout, frequency, clock⟩
      (∀ k, (r.calls (k + 1)).map Step.turn = plan.backward pool ::
        if 0 < frequency ∧ frequency ∣ k + 1 then [plan.forward pool] else []) ∧
      (∀ k, r.isOver (k + 1) = Plan.reaches o.timeLimit (clock (k + 1))) ∧
      ((∀ k < limit, r.Reaches (k + 1) → ∀ s ∈ r.calls (k + 1), s.Succeeds) →
        ∃ last p result, r.EndsAt limit last ∧ result.IsTrueTo r limit last ∧
          (∀ level, Plan.readLevel o.logLevel = .ok level →
            (train plan pool clock).perform m
              = (.ok (result, p.reported), p.coordinator.model)) ∧
          (Progress.run plan clock).perform { coordinator := r.start } = (.ok (r.ending last), p) ∧
          p.coordinator = r.after last ∧ p.coordinator.rounds = last + last / frequency) := by
  intro _ _
  obtain ⟨plan, hplan, hlevel, hrounds, hseed, htimeout, htests, hreports, hline, hover⟩ :=
    Plan.ofOptions_of_validated ho
  refine ⟨plan, hplan, fun e he => train_unlogged (hlevel.trans he), ?_⟩
  intro r
  have hidle : r.start.phase = .idle := rfl
  have hperiod : 0 < every := by
    obtain ⟨⟨selection, rfl⟩, i, hi, hone⟩ := Options.validated_spec ho
    cases hi.symm.trans (Value.toInt_of_whole? hevery)
    omega
  have htests' : ∀ k, plan.tests k = .ok (r.tests k) :=
    fun k => (congrFun htests k).trans (Value.isDue_of_whole? hfrequency k)
  have hreports' : ∀ k, ∃ due, plan.reports k = .ok due :=
    fun k => ⟨_, (congrFun hreports k).trans (Value.divides_of_whole? hevery hperiod k)⟩
  refine ⟨fun k => ?_, fun k => congrFun hover (clock (k + 1)), fun hsucceeds => ?_⟩
  · refine (Coordinator.steps_turn _ _).trans (congrArg (plan.backward pool :: ·) ?_)
    exact if_congr decide_eq_true_iff rfl rfl
  have hdone : ∀ k < limit, r.Reaches (k + 1) → r.IsDone (k + 1) := fun k hk hreached =>
    Course.isDone_of_succeeds hidle hends hline (htests' _) (hreports' _)
      (hsucceeds k hk hreached)
  obtain ⟨last, p, hlast, hrun, hcoordinator, hhistory⟩ := Course.run_perform hidle hpool
    (hrounds.trans (Value.readRounds_of_whole? hlimit)) hdone
  have hcount : (r.after last).rounds = _ := Course.after_rounds hidle fun k hk =>
    (hdone k (hk.trans_le hlast.within) fun j hj => hlast.reached j (by omega)).succeeds
  have hstart : r.start = .start m pool plan.seed plan.timeout := by rw [hseed, htimeout]
  refine ⟨last, p, _, hlast, Course.result_isTrueTo hidle hlast hcoordinator hhistory,
    fun _ hread => train_perform (hlevel.trans hread) (hstart ▸ hrun), hrun, hcoordinator, ?_⟩
  rw [hcoordinator, hcount]
  exact Nat.zero_add _

/-- A problem with a toll to pay, five in all, of which two are due at the last stage. -/
def tollProblem : StageProblem Float where
  stateCount := 1
  probabilities := Tensor.vector [1.0]
  answer t _ _ := .ok
    { objective := if t.setting.final then 2.0 else 5.0
      stageObjective := if t.setting.final then 2.0 else 3.0
      duals := [0.0]
      state := [0.0] }

def tollModel : Model Float where
  configuration :=
    { sense := .min, stageCount := 2, markovCount := 1, initialState := [0.0]
      transition := [[[1.0]]], initial := [1.0]
      scenarios := Grid.ofFn 2 1 fun _ _ => Tensor.vector [1.0]
      confidence := 0.95, params := [], bound := some (.finite 0.0)
      measure := { rule := .expectation }
      builder := fun _ _ => .ok (.problem tollProblem) }
  stateCount := 1
  problems := Grid.ofFn 2 1 fun t i =>
    { tollProblem with
      setting :=
        { final := t + 1 == 2, bound := some (.finite 0.0), stage := .int t
          markovState := .int i } }
  stores := Grid.ofFn 2 1 fun _ _ => Store.empty 1

/-- Three rounds at most, two seconds, and a test after every second round. -/
def tollOptions : Options where
  maxIterations := .int 3
  timeLimit := .int 2
  forwardPasses := .int 1
  convergenceFrequency := .int 2
  cutSelection := .string Selection.levelOne.name
  tolerance := .float 0.01
  seed := .int 7

def tollPlan : Plan Float where
  logLevel := .ok none
  selection := .levelOne
  rounds := .ok 3
  seed := .int 7
  timeout := .null
  backwardPasses := .int 1
  selectsAnew := (Value.int 0).isDue
  forwardPasses := .int 1
  tests := (Value.int 2).isDue
  judge := fun m => m.meets (.float 0.01)
  reports := (Value.int 1).divides
  line := HistoryEntry.text
  isOver := Plan.reaches (.int 2)

/-- One second for each round. -/
def tollCourse : Course Float :=
  ⟨tollPlan, .start tollModel ⟨.serial, 1⟩ (.int 7), 2, Float.ofNat⟩

theorem tollOptions_validated : tollOptions.validated = .ok tollOptions := by
  with_unfolding_all rfl

theorem tollPlan_ofOptions : Plan.ofOptions tollOptions = .ok tollPlan := by
  with_unfolding_all rfl

/-- After the second round the policy is good enough and the time is used up as well. -/
theorem Model.train_stops_toll :
    tollOptions.validated = .ok tollOptions ∧ Plan.ofOptions tollOptions = .ok tollPlan ∧
      ∃ (p : Progress Float) (result : TrainingResult Float), tollCourse.EndsAt 3 2 ∧
        result.IsTrueTo tollCourse 3 2 ∧ tollCourse.isOver 2 = true ∧
        result.status = TrainingResult.convergedStatus ∧
        (train tollPlan ⟨.serial, 1⟩ Float.ofNat).perform tollModel
          = (.ok (result, p.reported), p.coordinator.model) ∧
        p.coordinator = tollCourse.after 2 ∧ p.coordinator.rounds = 3 := by
  obtain ⟨plan, hplan, -, -, -, htrain⟩ := train_stops StudentT.quantile Generator.stream
    tollOptions_validated rfl rfl rfl tollModel (Figures.hasEnds_of_computed rfl) ⟨.serial, 1⟩ rfl
    Float.ofNat
  cases hplan.symm.trans tollPlan_ofOptions
  have hcalls : ∀ k < 3, ∀ s ∈ tollCourse.calls (k + 1), s.outcome.toOption.isSome = true := by
    decide +kernel
  have hsucceeds : ∀ k < 3, tollCourse.Reaches (k + 1) →
      ∀ s ∈ tollCourse.calls (k + 1), s.Succeeds := by
    intro k hk _ s hs
    have hsome := hcalls k hk s hs
    cases houtcome : s.outcome with
    | ok a => exact ⟨a, houtcome⟩
    | error e =>
      rw [houtcome] at hsome
      cases hsome
  have hstops : ∀ k < 3, tollCourse.stops k = decide (k = 2) := by
    decide +kernel
  have hend : tollCourse.EndsAt 3 2 :=
    ⟨by decide, fun j hj => (hstops j (by omega)).trans (decide_eq_false (by omega)),
      .inl (hstops 2 (by decide))⟩
  obtain ⟨last, p, result, hlast, htrue, hresult, -, hcoordinator, hrounds⟩ := htrain hsucceeds
  obtain rfl := hlast.unique hend
  exact ⟨tollOptions_validated, tollPlan_ofOptions, p, result, hlast, htrue, by decide +kernel,
    htrue.converged.mpr (by decide +kernel), hresult none rfl, hcoordinator, hrounds⟩

end Multistage
