/-
Multistage.Proofs.Round.Evaluation — forward rounds and simulations sample the same paths.

In both kinds of rounds every worker loads the same model and samples the same paths from its
seed (`Assignment.paths`): a forward round returns their objectives, and a simulation their
table.  Tables of paths are joined to the table of all paths, those of the first worker first
(`Simulation.joinAll_table`), and the objectives of a forward round are taken in the same
order.  So the samples that a forward round feeds to the confidence interval are those in the
flat column of a simulation that is run in its place, on any number of workers.
-/
import Multistage.Proofs.Policy.Evaluation
import Multistage.Proofs.Report.Table
import Multistage.Proofs.Round.Growth
import Multistage.Proofs.Round.Reachable
import Multistage.Proofs.Round.Scheduling

namespace Multistage

variable {α β γ ι : Type}

/-! ## Tables of paths -/

namespace Simulation

variable [Scalar α] {requested : List Value} {stages : Nat} {ps qs : List (Trajectory α)}

/-- The column of a name that is not the flat one's, or the flat one. -/
def columnOf (requested : List Value) (stages : Nat) (paths : List (Trajectory α)) (key : Value) :
    Column (Entry α) :=
  if key = objectiveKey then .flat (paths.map fun path => .amount path.objective)
  else .staged ((List.range stages).map (stageEntries requested key paths))

theorem isFlat_columnOf (requested : List Value) (stages : Nat) (paths : List (Trajectory α))
    (key : Value) : (columnOf requested stages paths key).isFlat = true ↔ key = objectiveKey := by
  unfold columnOf
  split <;> simp [*, Column.isFlat]

/-- Unless total objectives are requested, the columns of a table are flat or staged. -/
theorem column_eq_nested (hflat : objectiveKey ∉ requested) (paths : List (Trajectory α))
    (key : Value) :
    column requested stages paths key = (columnOf requested stages paths key).nested := by
  unfold column columnOf
  by_cases hkey : key = objectiveKey
  · subst hkey
    simp [hflat, Column.nested, Nested.ofEntries, totals]
  · simp [hkey, Column.nested, Nested.ofEntries, stageLists]

theorem columnOf_append (requested : List Value) (stages : Nat) (ps qs : List (Trajectory α))
    (key : Value) :
    (columnOf requested stages ps key).Fits (columnOf requested stages qs key) ∧
      (columnOf requested stages ps key).append (columnOf requested stages qs key)
        = columnOf requested stages (ps ++ qs) key := by
  unfold columnOf
  by_cases hkey : key = objectiveKey
  · simp [hkey, Column.Fits, Column.lists, Column.isFlat, Column.append]
  · have hentries : stageEntries requested key (ps ++ qs)
        = fun t => stageEntries requested key ps t ++ stageEntries requested key qs t :=
      funext fun t => List.flatMap_append
    simp [hkey, Column.Fits, Column.lists, Column.isFlat, Column.append, hentries,
      List.zipWith_map]

/-- The names of a table, in order. -/
def columnNames (requested : List Value) : List Value :=
  (objectiveKey :: builtIn ++ requested).foldl Named.withName []

theorem table_eq (requested : List Value) (stages : Nat) (paths : List (Trajectory α)) :
    table requested stages paths
      = (columnNames requested).map fun key => (key, column requested stages paths key) :=
  Named.ofPairs_map (fun _ _ h => column_congr requested stages paths h) _

theorem table_get?_of_mem {key : Value} (h : key ∈ columnNames requested) :
    (table requested stages ps).get? key = some (column requested stages ps key) := by
  refine table_get? requested stages ps (mem_keys_table requested stages ps ?_)
  rw [table_eq, Table.keys, List.map_map]
  simpa using h

/-- Tables of paths are joined to the table of all of them. -/
theorem join_table (hflat : objectiveKey ∉ requested) :
    Table.join (table requested stages ps) (table requested stages qs)
      = .ok (table requested stages (ps ++ qs)) := by
  have hsurplus : Table.surplusKeys (table requested stages ps) (table requested stages qs)
      = .ok [] := by
    have hnone : (table requested stages qs).keys.filter
        (fun key => ((table requested stages ps).get? key).isNone) = [] := by
      rw [table_eq requested stages qs, Table.keys, List.map_map]
      refine List.filter_eq_nil_iff.mpr fun key hkey => ?_
      rw [table_get?_of_mem (by simpa using hkey)]
      simp
    rw [Table.surplusKeys, hnone]
    rfl
  unfold Table.join
  rw [hsurplus]
  show (table requested stages ps).mapM _ = _
  rw [table_eq requested stages ps, table_eq requested stages (ps ++ qs), mapM_eq_ok,
    List.forall₂_map_left_iff, List.forall₂_map_right_iff]
  refine List.forall₂_same.mpr fun key hkey => ?_
  obtain ⟨hfit, happend⟩ := columnOf_append requested stages ps qs key
  have hfurther : (table requested stages qs).get? key
      = (some (columnOf requested stages qs key)).map Column.nested := by
    rw [table_get?_of_mem hkey, column_eq_nested hflat]
    rfl
  have hjoin := Table.joinColumn_eq (isFlat_columnOf requested stages ps key) hfurther
    fun d hd => by
      cases hd
      exact hfit.1.symm
  rw [Column.join, if_pos hfit, happend] at hjoin
  show (Table.joinColumn key (column requested stages ps key) _ >>= _) = _
  rw [column_eq_nested hflat, hjoin, column_eq_nested hflat]
  rfl

/-- All tables of some rows of paths are joined to the table of all paths. -/
theorem joinAll_table (hflat : objectiveKey ∉ requested) (rows : List (List (Trajectory α))) :
    Table.joinAll ((ps :: rows).map (table requested stages))
      = .ok (table requested stages (ps :: rows).flatten) := by
  have hopen : (table requested stages ps).mapM (fun (key, column) => do
      return (key, ← Table.openColumn key column)) = .ok (table requested stages ps) := by
    rw [table_eq, mapM_eq_ok, List.forall₂_map_left_iff, List.forall₂_map_right_iff]
    refine List.forall₂_same.mpr fun key _ => ?_
    show (Table.openColumn key (column requested stages ps key) >>= _) = _
    rw [column_eq_nested hflat, Table.openColumn_nested (isFlat_columnOf requested stages ps key)]
    rfl
  have hrest : ∀ (rows : List (List (Trajectory α))) (ps : List (Trajectory α)),
      (rows.map (table requested stages)).foldlM Table.join (table requested stages ps)
        = .ok (table requested stages (ps ++ rows.flatten)) := by
    intro rows
    induction rows with
    | nil => exact fun ps => by rw [List.flatten_nil, List.append_nil]; rfl
    | cons qs rows ih =>
      intro ps
      rw [List.map_cons, List.foldlM_cons, join_table hflat, ok_bind, ih, List.flatten_cons,
        List.append_assoc]
  rw [List.map_cons, Table.joinAll, hopen, ok_bind, hrest]
  rfl

end Simulation

/-! ## Workers -/

section Workers

variable [Scalar α] [Seeded α]

/-- The paths that a worker samples for a forward round or a simulation. -/
def Assignment.paths (a : Assignment α) : Except Failure (List (Trajectory α)) := do
  let model ← a.loadedModel
  let draws ← Draws.ofSeed a.seed
  ((Transition.times a.passes.toNat model.trajectory).perform draws).1

theorem Assignment.forward_eq (a : Assignment α) :
    a.forward = a.paths.map (List.map Trajectory.objective) := by
  unfold forward paths
  cases a.loadedModel with
  | error e => rfl
  | ok m =>
    cases (Draws.ofSeed a.seed : Except Failure (Draws α)) with
    | error e => rfl
    | ok draws => simp [Model.sampleObjectives_eq]

theorem Assignment.simulate_eq {a : Assignment α} {requested : List Value} {stages : Nat}
    (h : ∀ m, a.loadedModel = .ok m → m.Reports requested ∧ m.stageCount = stages) :
    a.simulate requested = a.paths.map (Simulation.table requested stages) := by
  unfold simulate paths
  cases hm : a.loadedModel with
  | error e => rfl
  | ok m =>
    obtain ⟨hreports, rfl⟩ := h m hm
    cases (Draws.ofSeed a.seed : Except Failure (Draws α)) with
    | error e => rfl
    | ok draws => simp [Model.simulate_eq hreports]

end Workers

/-! ## Results of rounds -/

theorem distribute_map {task : ι → Except Failure β} {task' : ι → Except Failure γ} {f : β → γ}
    {arguments : List ι} {p : Pool} {schedule : Schedule} {timeout : Value}
    (h : ∀ a ∈ arguments, task' a = (task a).map f) :
    p.distribute task' arguments schedule timeout
      = (p.distribute task arguments schedule timeout).map (List.map f) := by
  unfold Pool.distribute gather abandon
  cases p.checkListable with
  | error e => rfl
  | ok u =>
    rw [ok_bind, ok_bind]
    split
    · rfl
    · simp only [List.length_map]
      split
      · cases checkLimit timeout <;> rfl
      · rw [List.mapM_map, List.mapM_map, ← mapM_map]
        exact mapM_congr h

namespace Coordinator

/-- What the workers return is made of what they would return for another task. -/
theorem results_map {c : Coordinator α} {n : Value} {task : Assignment α → Except Failure β}
    {task' : Assignment α → Except Failure γ} {f : β → γ} {schedule : Schedule}
    (h : ∀ passes seed,
      task' (c.assignment passes seed) = (task (c.assignment passes seed)).map f) :
    c.results n task' schedule = (c.results n task schedule).map (List.map f) := by
  unfold results
  cases hhanded : c.handed n with
  | error e => rfl
  | ok as =>
    refine distribute_map fun a ha => ?_
    obtain ⟨passes, seeds, -, -, rfl⟩ := handed_eq_ok.mp hhanded
    obtain ⟨seed, -, rfl⟩ := List.mem_map.mp ha
    exact h passes seed

/-- A round has results of at least one worker. -/
theorem results_ne_nil {c : Coordinator α} {n : Value} {task : Assignment α → Except Failure β}
    {schedule : Schedule} {rs : List β} (h : c.results n task schedule = .ok rs) : rs ≠ [] := by
  obtain ⟨passes, seeds, hshare, hseeds, hresults⟩ := results_spec h
  obtain ⟨-, -, hshare⟩ := bind_eq_ok.mp hshare
  rintro rfl
  have hnone : c.pool.size = 0 := by
    rw [← length_seeds hseeds, hresults.length_eq]
    rfl
  rw [hnone] at hshare
  cases hshare

section Rounds

variable [Statistical α] [Seeded α]

/-- The model that the workers load for a forward round or a simulation.  It depends neither
on their passes nor on their seeds. -/
def workerModel (c : Coordinator α) : Except Failure (Model α) := (c.assignment 0 .null).loadedModel

theorem simulate_results {c : Coordinator α} {requested : List Value}
    (hreports : ∀ m, c.workerModel = .ok m → m.Reports requested) (n : Value)
    (schedule : Schedule) :
    ∃ stages, c.results n (fun a => a.simulate requested) schedule
      = (c.results n Assignment.paths schedule).map
          (List.map (Simulation.table requested stages)) := by
  cases hm : c.workerModel with
  | error e =>
    refine ⟨0, results_map fun passes seed => Assignment.simulate_eq fun m h => ?_⟩
    cases hm.symm.trans h
  | ok m =>
    refine ⟨m.stageCount, results_map fun passes seed => Assignment.simulate_eq fun m' h => ?_⟩
    cases hm.symm.trans h
    exact ⟨hreports m hm, rfl⟩

/-- A forward round and a simulation that is run in its place. -/
theorem simulate_forward {c : Coordinator α} {requested : List Value} (hidle : c.phase = .idle)
    (hsnapshot : c.snapshot = c.model.snapshot)
    (hreports : ∀ m, c.workerModel = .ok m → m.Reports requested)
    (hflat : objectiveKey ∉ requested) (n : Value) (judge : Model α → Except Failure Bool)
    (schedule : Schedule) :
    (∃ e, ((simulate n requested schedule).perform c).1 = .error e ∧
      (forwardRound n judge schedule).perform c = (.error e, c.counted n)) ∨
    ∃ samples table, ((simulate n requested schedule).perform c).1 = .ok table ∧
      table.get? objectiveKey = some (Simulation.flat samples) ∧
      (forwardRound n judge schedule).perform c
        = ((judge (c.model.withSamples samples)).map fun good => (good, samples.length),
            { c.counted n with model := c.model.withSamples samples }) := by
  have hrefresh : c.refresh = c := by
    unfold refresh
    rw [← hsnapshot]
  have hforward : c.results n Assignment.forward schedule
      = (c.results n Assignment.paths schedule).map
          (List.map (List.map Trajectory.objective)) :=
    results_map fun passes seed => Assignment.forward_eq _
  obtain ⟨stages, hsimulate⟩ := simulate_results hreports n schedule
  rw [simulate_perform hidle, forwardRound_perform hidle, hrefresh, hforward, hsimulate]
  cases hpaths : c.results n Assignment.paths schedule with
  | error e => exact .inl ⟨e, rfl, rfl⟩
  | ok rows =>
    cases rows with
    | nil => exact absurd rfl (results_ne_nil hpaths)
    | cons ps rows =>
      refine .inr ⟨((ps :: rows).flatten.map Trajectory.objective),
        Simulation.table requested stages (ps :: rows).flatten, ?_, ?_, ?_⟩
      · exact Simulation.joinAll_table hflat rows
      · exact Simulation.table_objective hflat stages _
      · rw [List.map_flatten]
        rfl

end Rounds

end Coordinator

/-- Policy evaluation and simulation agree.  From one stream of numbers both sample the same
paths, with the same failures, and the flat column of the table holds what an evaluation
returns.  So does the table of a simulation that workers run in the place of a forward round,
on the same seeds: the samples of which the round keeps the confidence interval are those in
its flat column, in the same order. -/
theorem evaluation_agrees_simulation [Statistical α] [Seeded α] :
    (∀ (m : Model α) (n : Nat) (requested : List Value), m.Reports requested →
      objectiveKey ∉ requested →
        (fun table => table.get? objectiveKey) <$> m.simulate n requested
          = (fun samples => some (Simulation.flat samples)) <$> m.sampleObjectives n) ∧
    ∀ (c : Coordinator α) (n : Value) (requested : List Value)
      (judge : Model α → Except Failure Bool) (schedule : Schedule), c.phase = .idle →
      c.snapshot = c.model.snapshot → (∀ m, c.workerModel = .ok m → m.Reports requested) →
      objectiveKey ∉ requested →
        (∃ e, ((Coordinator.simulate n requested schedule).perform c).1 = .error e ∧
          (Coordinator.forwardRound n judge schedule).perform c = (.error e, c.counted n)) ∨
        ∃ samples table, ((Coordinator.simulate n requested schedule).perform c).1 = .ok table ∧
          table.get? objectiveKey = some (Simulation.flat samples) ∧
          (Coordinator.forwardRound n judge schedule).perform c
            = ((judge (c.model.withSamples samples)).map fun good => (good, samples.length),
                { c.counted n with model := c.model.withSamples samples }) :=
  ⟨fun _ n _ hreports hflat => Model.simulate_objective hreports hflat n,
    fun _ n _ judge schedule hidle hsnapshot hreports hflat =>
      Coordinator.simulate_forward hidle hsnapshot hreports hflat n judge schedule⟩

/-- The problem of the valley, which now reports the state that it leaves. -/
def soundingProblem : StageProblem ℚ :=
  { Decisions.valleyProblem with
    answer := fun t x k => do
      let s ← Decisions.valleyProblem.answer t x k
      return { s with values := [("level", 5)] } }

def sounding : Blueprint ℚ :=
  { Decisions.valley with builder := some fun _ _ => .ok (.problem soundingProblem) }

def soundingModel : Model ℚ :=
  { Decisions.valleyModel with
    configuration :=
      { Decisions.valleyModel.configuration with
        builder := fun _ _ => .ok (.problem soundingProblem) }
    problems := Grid.ofFn 2 1 fun t i =>
      { soundingProblem with setting := (Decisions.valleyProblemAt t i).setting } }

theorem sounding_model : sounding.model = .ok soundingModel := by
  have hconfidence : Blueprint.confidenceLevel sounding.confidence = .ok (1 / 2) := by
    norm_num [Blueprint.confidenceLevel, sounding, Decisions.valley, Given.exactly]
    rfl
  unfold Blueprint.model
  rw [hconfidence]
  rfl

theorem sounding_reports : soundingModel.Reports ["level"] where
  names name hname := by
    obtain rfl := List.mem_singleton.mp hname
    rfl
  reported t i x k s _ h name hname := by
    obtain rfl := List.mem_singleton.mp hname
    obtain ⟨p, hp, hsolve⟩ := bind_eq_ok.mp h
    obtain rfl := Grid.ofFn_eq_some (Grid.entry_eq_ok.mp hp)
    obtain ⟨-, hanswer⟩ := StageProblem.solve_eq_ok.mp hsolve
    cases hanswer
    rfl

/-- Three paths of one stream, and four paths that two workers share. -/
theorem evaluation_agrees_sounding :
    let _ : Quantiles ℚ := ⟨id, fun level _ => level⟩
    let _ : Seeded ℚ := ⟨fun _ => .cycle (1 / 2) [0, 3 / 4]⟩
    let c := Coordinator.start soundingModel ⟨.thread, 2⟩ (.int 7)
    let reversed : Schedule := [.completes 1, .completes 0]
    (fun table => table.get? objectiveKey) <$> soundingModel.simulate 3 ["level"]
      = (fun samples => some (Simulation.flat samples)) <$> soundingModel.sampleObjectives 3 ∧
    ∃ samples table, ((Coordinator.simulate (.int 4) ["level"] reversed).perform c).1 = .ok table ∧
      table.get? objectiveKey = some (Simulation.flat samples) ∧
      (Coordinator.forwardRound (.int 4) (fun _ => .ok true) reversed).perform c
        = (.ok (true, samples.length),
            { c.counted (.int 4) with model := c.model.withSamples samples }) := by
  intro quantiles seeded c reversed
  obtain ⟨hstream, hround⟩ := @evaluation_agrees_simulation ℚ _ _
  have hworker : c.workerModel = .ok soundingModel := by
    obtain ⟨built, hbuilt⟩ := Blueprint.exists_built (by rintro t ⟨⟩) sounding_model
    have hown : (c.assignment 0 .null).ownModel = .ok soundingModel :=
      Assignment.ownModel_eq_ok.mpr ⟨_, hbuilt.rebuild_eq
        (fun t i q hq => ⟨_, Grid.ofFn_eq_some hq⟩) soundingModel.configuration.measure.buffers,
        rfl, rfl⟩
    unfold Coordinator.workerModel Assignment.loadedModel
    rw [hown]
    rfl
  refine ⟨hstream soundingModel 3 _ sounding_reports (by decide), ?_⟩
  have hreports : ∀ m, c.workerModel = .ok m → m.Reports ["level"] := by
    intro m hm
    cases hworker.symm.trans hm
    exact sounding_reports
  rcases hround c (.int 4) ["level"] (fun _ => .ok true) reversed rfl rfl hreports (by decide) with
    ⟨e, herror, -⟩ | h
  · have hok : ((Coordinator.simulate (.int 4) ["level"] reversed).perform c).1.isOk = true := by
      decide +kernel
    rw [herror] at hok
    cases hok
  · exact h

end Multistage
