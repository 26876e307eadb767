/-
Multistage.Proofs.Policy.Simulation — what a simulation table holds.

A table is meant to hold one entry per replication: a flat column of total objectives, and
for every other name one list per stage (`Simulation.Tabulates`).  Names share columns,
though, and a visit adds an entry to its column for every request of a name, besides the
one of the column that every table has (`Simulation.multiplicity`).  So the table is as it
is meant to be exactly if no name is requested twice or under the name of a column that is
there anyhow (`Model.simulate_tabulates_iff`).
-/
import Mathlib.Data.List.Forall2
import Multistage.Policy.Simulation
import Multistage.Proofs.Except
import Multistage.Proofs.Named
import Multistage.Proofs.Policy.Trajectory

namespace Multistage

variable {α : Type}

namespace Simulation

/-! ## What a table is meant to hold -/

/-- The entry of a visit under a name. -/
def cell? (key : Value) (v : Visit α) : Option (Entry α) :=
  (builtInCell? v key).or ((v.solution.values.get? key).map Entry.amount)

/-- A column of lists of entries. -/
def listed (lists : List (List (Entry α))) : Nested (Entry α) :=
  .list (lists.map fun entries => .list (entries.map Nested.entry))

/-- Whether a column has one list per stage with one entry per path: at each stage the
entry of the path's visit of that stage. -/
def HoldsOnePerPath (key : Value) (stages : Nat) (paths : List (Trajectory α))
    (c : Nested (Entry α)) : Prop :=
  ∃ lists, c = listed lists ∧ lists.length = stages ∧
    ∀ (t : Nat) entries, lists[t]? = some entries →
      List.Forall₂ (fun path e => path[t]?.bind (cell? key) = some e) paths entries

/-- Whether a table holds one entry per path: a flat list of the total objectives, and one
list per stage under every other name, of which there are no more than asked for. -/
structure Tabulates [Scalar α] (requested : List Value) (stages : Nat)
    (paths : List (Trajectory α)) (table : Table (Entry α)) : Prop where
  objective : table.get? objectiveKey
    = some (.list (paths.map fun path => .entry (.amount path.objective)))
  columns : ∀ key ∈ builtIn ++ requested, key ≠ objectiveKey →
    ∃ c, table.get? key = some c ∧ HoldsOnePerPath key stages paths c
  keys : ∀ key ∈ table.keys, key = objectiveKey ∨ key ∈ builtIn ++ requested

/-- Whether every requested variable is reported by every visit of a path. -/
def Reports (requested : List Value) (path : Trajectory α) : Prop :=
  ∀ v ∈ path, ∀ name ∈ requested, (v.solution.values.get? name).isSome = true

theorem checkReported_eq_ok {requested : List Value} {path : Trajectory α} :
    checkReported requested path = .ok () ↔ Reports requested path := by
  unfold checkReported
  rw [forM_eq_ok]
  constructor
  · intro h v hv name hname
    obtain ⟨t, ht, rfl⟩ := List.getElem_of_mem hv
    have hcheck := forM_eq_ok.mp (h (t, path[t]) (List.mem_mapIdx.mpr ⟨t, ht, rfl⟩)) name hname
    by_contra hnone
    rw [if_neg hnone] at hcheck
    cases hcheck
  · intro h x hx
    obtain ⟨t, ht, rfl⟩ := List.mem_mapIdx.mp hx
    exact forM_eq_ok.mpr fun name hname => if_pos (h path[t] (List.getElem_mem ht) name hname)

/-! ## Entries of a visit -/

/-- How many entries a visit adds to the column of a name. -/
def multiplicity (requested : List Value) (key : Value) : Nat :=
  (if key ∈ builtIn then 1 else 0) + requested.countP key.isSame

theorem length_builtInCell? (v : Visit α) (key : Value) :
    (builtInCell? v key).toList.length = if key ∈ builtIn then 1 else 0 := by
  unfold builtInCell? builtIn
  split <;> simp_all

section Visit

variable {requested : List Value} {key : Value} {v : Visit α}
  (hreported : ∀ name ∈ requested, (v.solution.values.get? name).isSome = true)

include hreported

theorem length_visitEntries :
    (visitEntries requested key v).length = multiplicity requested key := by
  have hall : ∀ name ∈ requested.filter key.isSame,
      ((v.solution.values.get? name).map Entry.amount).isSome = true := fun name hname => by
    rw [Option.isSome_map]
    exact hreported name (List.mem_of_mem_filter hname)
  rw [visitEntries, List.length_append, length_builtInCell?,
    List.filterMap_length_eq_length.mpr hall, ← List.countP_eq_length_filter]
  rfl

/-- Under a name that comes up once a visit adds its own entry and no other. -/
theorem visitEntries_eq_cell (hmem : key ∈ builtIn ++ requested)
    (honce : multiplicity requested key = 1) :
    ∃ e, cell? key v = some e ∧ visitEntries requested key v = [e] := by
  have hlength := length_builtInCell? v key
  unfold multiplicity at honce
  by_cases hbuiltIn : key ∈ builtIn
  · rw [if_pos hbuiltIn] at hlength honce
    have hnone : requested.filter key.isSame = [] := by
      rw [← List.length_eq_zero_iff, ← List.countP_eq_length_filter]
      omega
    cases hcell : builtInCell? v key with
    | none => simp [hcell] at hlength
    | some e => exact ⟨e, by simp [cell?, hcell], by simp [visitEntries, hcell, hnone]⟩
  · rw [if_neg hbuiltIn] at hlength honce
    have hcell : builtInCell? v key = none := by
      rwa [List.length_eq_zero_iff, Option.toList_eq_nil_iff] at hlength
    obtain ⟨name, hname⟩ : ∃ name, requested.filter key.isSame = [name] := by
      rw [← List.length_eq_one_iff, ← List.countP_eq_length_filter]
      omega
    have hrequested : key ∈ requested := (List.mem_append.mp hmem).resolve_left hbuiltIn
    obtain ⟨a, ha⟩ := Option.isSome_iff_exists.mp (hreported key hrequested)
    -- the one request of the name is the name itself
    have hkey : key ∈ requested.filter key.isSame :=
      List.mem_filter.mpr ⟨hrequested, key.isSame_refl⟩
    rw [hname, List.mem_singleton] at hkey
    subst hkey
    exact ⟨.amount a, by simp [cell?, hcell, ha], by simp [visitEntries, hcell, hname, ha]⟩

end Visit

/-! ## Entries of a stage -/

section Stage

variable {requested : List Value} {key : Value} {stages t : Nat} {paths : List (Trajectory α)}
  (hpaths : ∀ path ∈ paths, path.length = stages ∧ Reports requested path) (ht : t < stages)

include hpaths ht

theorem length_stageEntries :
    (stageEntries requested key paths t).length = paths.length * multiplicity requested key := by
  unfold stageEntries
  induction paths with
  | nil => simp
  | cons path paths ih =>
    obtain ⟨⟨hlength, hreports⟩, hrest⟩ := List.forall_mem_cons.mp hpaths
    subst hlength
    rw [List.flatMap_cons, List.length_append, ih hrest, List.getElem?_eq_getElem ht,
      Option.map_some, Option.getD_some,
      length_visitEntries (hreports _ (List.getElem_mem ht)), List.length_cons,
      Nat.add_mul, Nat.one_mul, Nat.add_comm]

/-- The column of a name that comes up once has one entry per path. -/
theorem stageEntries_forall₂ (hmem : key ∈ builtIn ++ requested)
    (honce : multiplicity requested key = 1) :
    List.Forall₂ (fun path e => path[t]?.bind (cell? key) = some e) paths
      (stageEntries requested key paths t) := by
  unfold stageEntries
  induction paths with
  | nil => exact .nil
  | cons path paths ih =>
    obtain ⟨⟨hlength, hreports⟩, hrest⟩ := List.forall_mem_cons.mp hpaths
    subst hlength
    obtain ⟨e, hcell, hentries⟩ :=
      visitEntries_eq_cell (hreports _ (List.getElem_mem ht)) hmem honce
    rw [List.flatMap_cons, List.getElem?_eq_getElem ht, Option.map_some, Option.getD_some, hentries]
    exact .cons (by rw [List.getElem?_eq_getElem ht]; exact hcell) (ih hrest)

end Stage

/-! ## Columns -/

theorem eq_of_isSame_text {key key' : Value} (h : key.isSame key' = true) {s : String}
    (hs : key = .string s ∨ key' = .string s) : key = key' := by
  rcases hs with rfl | rfl
  · exact (Value.isSame_string.mp h).symm
  · rw [Value.isSame_comm] at h
    exact Value.isSame_string.mp h

theorem builtInCell?_congr {key key' : Value} (h : key.isSame key' = true) (v : Visit α) :
    builtInCell? v key = builtInCell? v key' := by
  by_cases hstring : ∃ s, key = .string s ∨ key' = .string s
  · obtain ⟨s, hs⟩ := hstring
    rw [eq_of_isSame_text h hs]
  · have hnone : ∀ k : Value, (∀ s, k ≠ .string s) → builtInCell? v k = none := by
      intro k hk
      unfold builtInCell?
      split
      · exact absurd rfl (hk _)
      · exact absurd rfl (hk _)
      · exact absurd rfl (hk _)
      · rfl
    push Not at hstring
    rw [hnone key fun s => (hstring s).1, hnone key' fun s => (hstring s).2]

/-- All values of one name have one column. -/
theorem column_congr [Scalar α] (requested : List Value) (stages : Nat)
    (paths : List (Trajectory α)) {key key' : Value} (h : key.isSame key' = true) :
    column requested stages paths key = column requested stages paths key' := by
  by_cases hobjective : key = objectiveKey ∨ key' = objectiveKey
  · rw [eq_of_isSame_text h hobjective]
  · push Not at hobjective
    have hsame : key.isSame = key'.isSame := funext fun k => Value.isSame_congr h k
    have hentries : visitEntries requested key = (visitEntries requested key' : Visit α → _) := by
      funext v
      rw [visitEntries, visitEntries, builtInCell?_congr h, hsame]
    rw [column, column, if_neg hobjective.1, if_neg hobjective.2, stageLists, stageLists]
    simp only [stageEntries, hentries]

section Table

variable [Scalar α] (requested : List Value) (stages : Nat) (paths : List (Trajectory α))

theorem table_get? {key : Value} (h : key ∈ objectiveKey :: builtIn ++ requested) :
    (table requested stages paths).get? key = some (column requested stages paths key) := by
  rw [table, Named.get?_ofPairs_map (fun _ _ h => column_congr requested stages paths h), if_pos]
  exact List.any_eq_true.mpr ⟨key, h, key.isSame_refl⟩

theorem mem_keys_table {key : Value} (h : key ∈ (table requested stages paths).keys) :
    key ∈ objectiveKey :: builtIn ++ requested :=
  Named.mem_keys_ofPairs_map h

omit [Scalar α] in
theorem stageLists_eq (key : Value) :
    .list (stageLists requested key stages paths)
      = listed ((List.range stages).map (stageEntries requested key paths)) := by
  rw [stageLists, listed, List.map_map]
  rfl

theorem table_get?_listed {key : Value} (hmem : key ∈ builtIn ++ requested)
    (hkey : key ≠ objectiveKey) :
    (table requested stages paths).get? key
      = some (listed ((List.range stages).map (stageEntries requested key paths))) := by
  rw [table_get? requested stages paths (List.mem_cons_of_mem _ hmem), column, if_neg hkey,
    stageLists_eq]

end Table

theorem listed_injective : Function.Injective (listed : List (List (Entry α)) → _) := by
  intro lists lists' h
  have hentry : Function.Injective (Nested.entry : Entry α → _) := fun _ _ => Nested.entry.inj
  have hlist : Function.Injective fun entries : List (Entry α) =>
      Nested.list (entries.map Nested.entry) :=
    fun _ _ h => List.map_injective_iff.mpr hentry (Nested.list.inj h)
  exact List.map_injective_iff.mpr hlist (Nested.list.inj h)

/-! ## When a table is as it is meant to be -/

/-- A column has one entry per path exactly if its name comes up once, or there are no
paths. -/
theorem stageEntries_holdOnePerPath_iff {requested : List Value} {key : Value} {stages : Nat}
    {paths : List (Trajectory α)} (hstages : 1 ≤ stages)
    (hpaths : ∀ path ∈ paths, path.length = stages ∧ Reports requested path)
    (hmem : key ∈ builtIn ++ requested) :
    HoldsOnePerPath key stages paths
        (listed ((List.range stages).map (stageEntries requested key paths)))
      ↔ paths = [] ∨ multiplicity requested key = 1 := by
  constructor
  · rintro ⟨lists, hlists, -, hentries⟩
    cases listed_injective hlists
    have hzero : ((List.range stages).map (stageEntries requested key paths))[0]?
        = some (stageEntries requested key paths 0) := by
      rw [List.getElem?_map, List.getElem?_range hstages]
      rfl
    have hfirst := (hentries 0 _ hzero).length_eq
    rw [length_stageEntries hpaths hstages] at hfirst
    rcases Nat.eq_zero_or_pos paths.length with h | h
    · exact .inl (List.length_eq_zero_iff.mp h)
    · exact .inr (Nat.eq_of_mul_eq_mul_left h (by rw [← hfirst, Nat.mul_one]))
  · intro h
    refine ⟨_, rfl, by simp, fun t entries ht => ?_⟩
    rw [List.getElem?_map] at ht
    obtain ⟨t', ht', rfl⟩ := Option.map_eq_some_iff.mp ht
    obtain ⟨hlt, rfl⟩ := List.getElem?_eq_some_iff.mp ht'
    rw [List.length_range] at hlt
    rw [List.getElem_range]
    rcases h with rfl | honce
    · exact .nil
    · exact stageEntries_forall₂ hpaths hlt hmem honce

theorem isSame_of_mem_builtIn {key v : Value} (h : key ∈ builtIn) :
    key.isSame v = true ↔ v = key := by
  simp only [builtIn, List.mem_cons, List.not_mem_nil, or_false] at h
  rcases h with rfl | rfl | rfl <;> exact Value.isSame_string

/-- Whether every requested name has a column of its own: no name is requested twice, or
under the name of a column that is there anyhow. -/
structure HaveOwnColumns (requested : List Value) : Prop where
  distinct : requested.Pairwise fun a b => a.isSame b = false
  new : ∀ name ∈ requested, name ∉ builtIn

/-- Names come up once each if no two of them are one name. -/
theorem countP_isSame_eq_one_iff {requested : List Value} :
    (∀ name ∈ requested, requested.countP name.isSame = 1)
      ↔ requested.Pairwise fun a b => a.isSame b = false := by
  induction requested with
  | nil => simp
  | cons a requested ih =>
    rw [List.pairwise_cons, ← ih, List.forall_mem_cons]
    have hhead : (a :: requested).countP a.isSame = 1 ↔ ∀ b ∈ requested, a.isSame b = false := by
      rw [List.countP_cons, if_pos a.isSame_refl, Nat.add_eq_right, List.countP_eq_zero]
      simp
    rw [hhead]
    refine and_congr_right fun hdistinct => ?_
    refine forall₂_congr fun b hb => ?_
    rw [List.countP_cons, Value.isSame_comm, hdistinct b hb]
    rfl

/-- Every column gets one entry from a visit exactly if all requested names have columns of
their own. -/
theorem multiplicity_eq_one_iff {requested : List Value} :
    (∀ key ∈ builtIn ++ requested, multiplicity requested key = 1)
      ↔ HaveOwnColumns requested := by
  constructor
  · intro h
    have hnew : ∀ name ∈ requested, name ∉ builtIn := by
      intro name hname hbuiltIn
      have honce := h name (List.mem_append_right _ hname)
      have hpos : 0 < requested.countP name.isSame :=
        List.countP_pos_iff.mpr ⟨name, hname, name.isSame_refl⟩
      rw [multiplicity, if_pos hbuiltIn] at honce
      omega
    refine ⟨countP_isSame_eq_one_iff.mp fun name hname => ?_, hnew⟩
    have honce := h name (List.mem_append_right _ hname)
    rwa [multiplicity, if_neg (hnew name hname), Nat.zero_add] at honce
  · rintro ⟨hdistinct, hnew⟩ key hkey
    rw [multiplicity]
    by_cases hbuiltIn : key ∈ builtIn
    · have hnone : requested.countP key.isSame = 0 := List.countP_eq_zero.mpr fun name hname h =>
        hnew name hname ((isSame_of_mem_builtIn hbuiltIn).mp h ▸ hbuiltIn)
      rw [if_pos hbuiltIn, hnone]
    · rw [if_neg hbuiltIn, Nat.zero_add]
      have hrequested := (List.mem_append.mp hkey).resolve_left hbuiltIn
      exact countP_isSame_eq_one_iff.mpr hdistinct key hrequested

theorem table_tabulates_iff [Scalar α] {requested : List Value} {stages : Nat}
    {paths : List (Trajectory α)} (hstages : 1 ≤ stages)
    (hpaths : ∀ path ∈ paths, path.length = stages ∧ Reports requested path) :
    Tabulates requested stages paths (table requested stages paths)
      ↔ objectiveKey ∉ requested ∧ (paths = [] ∨ HaveOwnColumns requested) := by
  have hobjective : (table requested stages paths).get? objectiveKey = some (.list
      ((if requested.contains objectiveKey then stageLists requested objectiveKey stages paths
        else []) ++ totals paths)) := by
    rw [table_get? requested stages paths (by simp), column, if_pos rfl]
  have hbuiltIn : objectiveKey ∉ builtIn := by decide
  constructor
  · intro h
    have hnot : objectiveKey ∉ requested := by
      intro hmem
      have hflat := h.objective
      rw [hobjective, if_pos (List.contains_iff_mem.mpr hmem)] at hflat
      have hlength := congrArg List.length (Nested.list.inj (Option.some.inj hflat))
      simp only [List.length_append, totals, stageLists, List.length_map,
        List.length_range] at hlength
      omega
    refine ⟨hnot, ?_⟩
    by_cases hnone : paths = []
    · exact .inl hnone
    refine .inr (multiplicity_eq_one_iff.mp fun key hmem => ?_)
    have hkey : key ≠ objectiveKey := by
      rintro rfl
      exact (List.mem_append.mp hmem).elim hbuiltIn hnot
    obtain ⟨c, hc, hholds⟩ := h.columns key hmem hkey
    cases (table_get?_listed requested stages paths hmem hkey).symm.trans hc
    exact ((stageEntries_holdOnePerPath_iff hstages hpaths hmem).mp hholds).resolve_left hnone
  · rintro ⟨hnot, honce⟩
    refine ⟨?_, fun key hmem hkey => ?_, fun key hkey => ?_⟩
    · rw [hobjective, if_neg (fun h => hnot (List.contains_iff_mem.mp h))]
      rfl
    · refine ⟨_, table_get?_listed requested stages paths hmem hkey, ?_⟩
      rw [stageEntries_holdOnePerPath_iff hstages hpaths hmem]
      exact honce.imp_right fun h => multiplicity_eq_one_iff.mpr h key hmem
    · exact List.mem_cons.mp (mem_keys_table requested stages paths hkey)

end Simulation

/-! ## Simulations -/

open Simulation

namespace Model

variable [Scalar α]

/-- A simulation that is completed has sampled as many paths as were asked for, each with a
visit per stage that reports all that was requested, and lays them out in a table. -/
theorem simulate_eq_ok {m : Model α} {n : Nat} {requested : List Value} {d d' : Draws α}
    {table : Table (Entry α)} (h : (m.simulate n requested).perform d = (.ok table, d')) :
    ∃ paths, (Transition.times n m.trajectory).perform d = (.ok paths, d') ∧ paths.length = n ∧
      (∀ path ∈ paths, path.length = m.stageCount ∧ Reports requested path) ∧
      table = Simulation.table requested m.stageCount paths := by
  obtain ⟨-, -, h⟩ := Transition.outcome_bind_eq_ok.mp h
  obtain ⟨paths, d₁, hpaths, h⟩ := Transition.perform_bind_eq_ok.mp h
  cases h
  obtain ⟨hpaths, hchecks⟩ := Transition.times_checked_eq_ok.mp hpaths
  have hvisits : Transition.Ensures (fun _ : Draws α => True) m.trajectory
      fun path => path.length = m.stageCount :=
    fun d _ => ⟨trivial, fun path hpath => length_trajectory (Prod.ext hpath rfl)⟩
  obtain ⟨hlength, hstages⟩ := (hvisits.times n d trivial).2 paths (by rw [hpaths])
  exact ⟨paths, hpaths, hlength,
    fun path hpath => ⟨hstages path hpath, checkReported_eq_ok.mp (hchecks path hpath)⟩, rfl⟩

/-- A simulation that is completed has sampled as many paths as were asked for from the
stream of numbers.  In the column of a name there is one list per stage, to which every
path adds an entry for each time that the name comes up.  So the table holds one entry per
path, in every column and at every stage, exactly if the column of total objectives is not
requested as a variable and, unless there are no paths, all requested names have columns of
their own. -/
theorem simulate_tabulates_iff {m : Model α} (hstages : 1 ≤ m.stageCount) {n : Nat}
    {requested : List Value} {d d' : Draws α} {table : Table (Entry α)}
    (h : (m.simulate n requested).perform d = (.ok table, d')) :
    ∃ paths, (Transition.times n m.trajectory).perform d = (.ok paths, d') ∧ paths.length = n ∧
      (∀ path ∈ paths, path.length = m.stageCount) ∧
      (∀ key ∈ builtIn ++ requested, key ≠ objectiveKey →
        ∃ lists, table.get? key = some (listed lists) ∧ lists.length = m.stageCount ∧
          ∀ entries ∈ lists, entries.length = n * multiplicity requested key) ∧
      (Tabulates requested m.stageCount paths table
        ↔ objectiveKey ∉ requested ∧ (n = 0 ∨ HaveOwnColumns requested)) := by
  obtain ⟨paths, hpaths, hlength, hreports, rfl⟩ := simulate_eq_ok h
  refine ⟨paths, hpaths, hlength, fun path hpath => (hreports path hpath).1, ?_, ?_⟩
  · intro key hmem hkey
    refine ⟨_, table_get?_listed requested m.stageCount paths hmem hkey, by simp,
      fun entries hentries => ?_⟩
    obtain ⟨t, ht, rfl⟩ := List.mem_map.mp hentries
    rw [length_stageEntries hreports (List.mem_range.mp ht), hlength]
  · rw [table_tabulates_iff hstages hreports, ← hlength, List.length_eq_zero_iff]

end Model

/-- A visit that costs two and reports a volume of five. -/
def reservoirVisit : Visit Float where
  markov := 0
  scenario := 0
  solution :=
    { objective := 2.0, stageObjective := 2.0, duals := [], state := []
      values := [("volume", 5.0)] }

/-- A stage without a choice. -/
def reservoirProblem : StageProblem Float where
  stateCount := 0
  probabilities := Tensor.vector [1.0]
  answer _ _ _ := .ok reservoirVisit.solution

/-- The model of that stage, with one Markov state. -/
def reservoir : Model Float where
  configuration :=
    { sense := .min, stageCount := 1, markovCount := 1, initialState := [], transition := []
      initial := [1.0], scenarios := [[Tensor.vector [1.0]]], confidence := 0.95, params := []
      bound := none, measure := { rule := .expectation }
      builder := fun _ _ => .ok (.problem reservoirProblem) }
  stateCount := 0
  problems := [[reservoirProblem]]
  stores := [[Store.empty 0]]

theorem sampleIndex_single {α : Type} [Scalar α] (a : α) (d : Draws α) :
    (sampleIndex [a]).perform d = (.ok 0, { d with position := d.position + 1 }) := by
  have hindex : ∀ u : α, indexOf [a] u = some 0 := fun u => by
    simp [indexOf, cumulative, runningSums]
  have hnext : Draws.next.perform d
      = (.ok (d.sequence d.position), { d with position := d.position + 1 }) := rfl
  unfold sampleIndex
  rw [Transition.perform_bind_ok hnext, hindex]
  rfl

theorem reservoir_trajectory (d : Draws Float) :
    reservoir.trajectory.perform d
      = (.ok [reservoirVisit], { d with position := d.position + 1 + 1 }) := by
  refine Transition.perform_bind_eq_ok.mpr ⟨0, _, sampleIndex_single 1.0 d, ?_⟩
  refine Transition.outcome_bind_eq_ok.mpr ⟨Tensor.vector [1.0], rfl, ?_⟩
  refine Transition.perform_bind_eq_ok.mpr ⟨0, _, ?_, rfl⟩
  exact Transition.perform_bind_eq_ok.mpr ⟨0, _, sampleIndex_single 1.0 _, rfl⟩

theorem reservoir_simulate (d : Draws Float) :
    (reservoir.simulate 1 ["volume", "volume"]).perform d
      = (.ok (table ["volume", "volume"] 1 [[reservoirVisit]]),
        { d with position := d.position + 1 + 1 }) := by
  have hpaths : (Transition.times 1 reservoir.trajectory).perform d
      = (.ok [[reservoirVisit]], { d with position := d.position + 1 + 1 }) :=
    Transition.perform_bind_eq_ok.mpr ⟨_, _, reservoir_trajectory d, rfl⟩
  have hchecks : ∀ p ∈ [[reservoirVisit]], checkReported ["volume", "volume"] p = .ok () :=
    List.forall_mem_singleton.mpr rfl
  refine Transition.outcome_bind_eq_ok.mpr ⟨(), rfl, ?_⟩
  exact Transition.perform_bind_eq_ok.mpr
    ⟨_, _, Transition.times_checked_eq_ok.mpr ⟨hpaths, hchecks⟩, rfl⟩

/-- Requested twice, a variable has two entries per path at every stage. -/
theorem reservoir_twice : ∃ paths table d',
    (reservoir.simulate 1 ["volume", "volume"]).perform (Draws.cycle 0.25 []) = (.ok table, d') ∧
      paths.length = 1 ∧ ¬Tabulates ["volume", "volume"] 1 paths table ∧
      ∃ lists, table.get? "volume" = some (listed lists) ∧
        ∀ entries ∈ lists, entries.length = 2 := by
  obtain ⟨paths, -, hlength, -, hcolumns, hiff⟩ := Model.simulate_tabulates_iff
    (m := reservoir) (by decide) (reservoir_simulate (Draws.cycle 0.25 []))
  obtain ⟨lists, hlists, -, hentries⟩ := hcolumns "volume" (by decide) (by decide)
  refine ⟨paths, _, _, reservoir_simulate _, hlength, fun h => ?_, lists, hlists, hentries⟩
  have hdistinct := ((hiff.mp h).2.resolve_left Nat.one_ne_zero).distinct
  revert hdistinct
  decide

end Multistage
