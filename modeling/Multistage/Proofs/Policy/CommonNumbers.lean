/-
Multistage.Proofs.Policy.CommonNumbers — paths of common random numbers.

Which Markov states and scenarios a path goes through is decided by the tables that it is
drawn from and by the numbers that are drawn.  The stages' solutions have no part in it, and
every path takes two numbers per stage, wherever it leads (`Model.trajectory_draws`,
`Model.trajectory_choices`).  So two policies are compared on the same paths: pass by pass,
all kernels take the same blocks of numbers of a stream and make the same choices of them,
whatever they do with a path once it has been sampled.  What comes of the passes is made of
these paths (`Kernel.Makes`, `Kernel.samples_common`).
-/
import Multistage.Proofs.Policy.Evaluation
import Multistage.Proofs.Policy.Pass
import Multistage.Proofs.Policy.Possible

namespace Multistage

variable {α β : Type}

/-! ## Streams -/

namespace Draws

/-- The stream after so many numbers have been drawn. -/
def skip (d : Draws α) (n : Nat) : Draws α := { d with position := d.position + n }

@[simp] theorem skip_skip (d : Draws α) (n k : Nat) : (d.skip n).skip k = d.skip (n + k) := by
  simp [skip, Nat.add_assoc]

/-- Whether the next numbers of two streams are the same. -/
def AgreeFor (n : Nat) (d d' : Draws α) : Prop :=
  ∀ k < n, d.sequence (d.position + k) = d'.sequence (d'.position + k)

theorem AgreeFor.head {n : Nat} {d d' : Draws α} (h : AgreeFor n d d') (hn : 0 < n) :
    d.sequence d.position = d'.sequence d'.position :=
  h 0 hn

theorem AgreeFor.skip {n k r : Nat} {d d' : Draws α} (h : AgreeFor r d d') (hr : n + k ≤ r) :
    AgreeFor k (d.skip n) (d'.skip n) := by
  intro j hj
  have hlater := h (n + j) (by omega)
  rwa [← Nat.add_assoc, ← Nat.add_assoc] at hlater

end Draws

/-! ## Single choices -/

section Choices

variable [Scalar α]

/-- An index is drawn with one number, and depends on nothing else in the stream. -/
theorem sampleIndex_common {weights : List α} {d d' e e' : Draws α} {k k' : Nat}
    (h : (sampleIndex weights).perform d = (.ok k, e))
    (h' : (sampleIndex weights).perform d' = (.ok k', e'))
    (hnumber : d.sequence d.position = d'.sequence d'.position) : k = k' := by
  obtain ⟨hk, -⟩ := sampleIndex_eq_ok.mp h
  obtain ⟨hk', -⟩ := sampleIndex_eq_ok.mp h'
  rw [hnumber, hk'] at hk
  exact (Option.some.inj hk).symm

theorem sampleIndex_draws {weights : List α} {d d' : Draws α} {k : Nat}
    (h : (sampleIndex weights).perform d = (.ok k, d')) : d' = d.skip 1 :=
  (sampleIndex_eq_ok.mp h).2

/-- An index of the first dimension is drawn as an index of the entries. -/
theorem sampleLeading_eq_ok {t : Tensor α} {d d' : Draws α} {k : Nat} :
    (sampleLeading t).perform d = (.ok k, d')
      ↔ ∃ n rest j, t.shape = n :: rest ∧ (sampleIndex t.entries).perform d = (.ok j, d') ∧
          k = Nat.min j (n - 1) := by
  unfold sampleLeading
  cases t.shape with
  | nil => simp
  | cons n rest =>
    dsimp only
    rw [Transition.perform_bind_eq_ok]
    constructor
    · rintro ⟨j, e, hj, h⟩
      cases h
      exact ⟨n, rest, j, rfl, hj, rfl⟩
    · rintro ⟨n', rest', j, hshape, hj, rfl⟩
      cases hshape
      exact ⟨j, d', hj, rfl⟩

theorem sampleLeading_common {t : Tensor α} {d d' e e' : Draws α} {k k' : Nat}
    (h : (sampleLeading t).perform d = (.ok k, e))
    (h' : (sampleLeading t).perform d' = (.ok k', e'))
    (hnumber : d.sequence d.position = d'.sequence d'.position) : k = k' := by
  obtain ⟨n, rest, j, hshape, hj, rfl⟩ := sampleLeading_eq_ok.mp h
  obtain ⟨n', rest', j', hshape', hj', rfl⟩ := sampleLeading_eq_ok.mp h'
  cases hshape.symm.trans hshape'
  rw [sampleIndex_common hj hj' hnumber]

theorem sampleLeading_draws {t : Tensor α} {d d' : Draws α} {k : Nat}
    (h : (sampleLeading t).perform d = (.ok k, d')) : d' = d.skip 1 := by
  obtain ⟨n, rest, j, -, hj, -⟩ := sampleLeading_eq_ok.mp h
  exact sampleIndex_draws hj

end Choices

/-! ## Paths -/

/-- What is drawn for a visit: its Markov state and its scenario. -/
def Visit.choice (v : Visit α) : Nat × Nat := (v.markov, v.scenario)

/-- Whether two configurations draw paths from the same tables: they have as many stages,
the same initial distribution, and the same transition and scenario probabilities.  All else
may differ. -/
structure Configuration.DrawsAs (c c' : Configuration α) : Prop where
  stageCount : c.stageCount = c'.stageCount
  initial : c.initial = c'.initial
  transition : c.transition = c'.transition
  scenarios : c.scenarios = c'.scenarios

namespace Configuration.DrawsAs

variable {c c' c'' : Configuration α}

theorem refl (c : Configuration α) : c.DrawsAs c := ⟨rfl, rfl, rfl, rfl⟩

theorem symm (h : c.DrawsAs c') : c'.DrawsAs c :=
  ⟨h.stageCount.symm, h.initial.symm, h.transition.symm, h.scenarios.symm⟩

theorem trans (h : c.DrawsAs c') (h' : c'.DrawsAs c'') : c.DrawsAs c'' :=
  ⟨h.stageCount.trans h'.stageCount, h.initial.trans h'.initial,
    h.transition.trans h'.transition, h.scenarios.trans h'.scenarios⟩

end Configuration.DrawsAs

namespace Model

variable [Scalar α] {m m' : Model α}

theorem Makes.draws {t : Nat} {x : Point α} {v : Visit α} {d d' : Draws α}
    (h : m.Makes t x v d d') : d' = d.skip 1 := by
  obtain ⟨q, -, hscenario⟩ := h.scenario
  exact sampleLeading_draws hscenario

theorem Moves.draws {t i j : Nat} {d d' : Draws α} (h : m.Moves t i j d d') : d' = d.skip 1 := by
  obtain ⟨row, -, hnext⟩ := h
  exact sampleIndex_draws hnext

/-- A visit of a Markov state depends on the number that is drawn, not on the state at which
the stage is solved. -/
theorem Makes.choice_eq (hm : m.configuration.DrawsAs m'.configuration) {t : Nat}
    {x x' : Point α} {v v' : Visit α} {d d' e e' : Draws α} (h : m.Makes t x v d e)
    (h' : m'.Makes t x' v' d' e') (hmarkov : v.markov = v'.markov)
    (hnumber : d.sequence d.position = d'.sequence d'.position) : v.choice = v'.choice := by
  obtain ⟨q, hq, hscenario⟩ := h.scenario
  obtain ⟨q', hq', hscenario'⟩ := h'.scenario
  unfold scenarioRow at hq hq'
  rw [hm.scenarios, hmarkov, hq'] at hq
  cases hq
  exact Prod.ext hmarkov (sampleLeading_common hscenario hscenario' hnumber)

theorem Moves.eq (hm : m.configuration.DrawsAs m'.configuration) {t i j j' : Nat}
    {d d' e e' : Draws α} (h : m.Moves t i j d e) (h' : m'.Moves t i j' d' e')
    (hnumber : d.sequence d.position = d'.sequence d'.position) : j = j' := by
  obtain ⟨row, hrow, hnext⟩ := h
  obtain ⟨row', hrow', hnext'⟩ := h'
  unfold transitionRow at hrow hrow'
  rw [hm.transition, hrow'] at hrow
  cases hrow
  exact sampleIndex_common hnext hnext' hnumber

/-- The first visit of a part of a path takes one number, every later one takes two. -/
theorem visits_draws {n t i : Nat} {x : Point α} {d d' : Draws α} {path : List (Visit α)}
    (h : (m.visits n t i x).perform d = (.ok path, d')) : d' = d.skip (2 * n - 1) := by
  induction n generalizing t i x d path with
  | zero =>
    cases h
    rfl
  | succ n ih =>
    obtain ⟨v, d₁, later, -, -, hmakes, hlater⟩ := visits_succ_eq_ok h
    obtain rfl := hmakes.draws
    rcases hlater with ⟨rfl, -, rfl⟩ | ⟨hn, j, d₂, hmoves, hlater⟩
    · rfl
    · obtain rfl := hmoves.draws
      rw [ih hlater, Draws.skip_skip, Draws.skip_skip]
      congr 1
      omega

/-- Visits of two models with the same tables make the same choices of the same numbers.
The states at which the stages are solved play no part. -/
theorem visits_choices (hm : m.configuration.DrawsAs m'.configuration) {n t i : Nat}
    {x x' : Point α} {d d' e e' : Draws α} {path path' : List (Visit α)}
    (h : (m.visits n t i x).perform d = (.ok path, e))
    (h' : (m'.visits n t i x').perform d' = (.ok path', e'))
    (hagree : Draws.AgreeFor (2 * n - 1) d d') :
    path.map Visit.choice = path'.map Visit.choice := by
  induction n generalizing t i x x' d d' path path' with
  | zero =>
    cases h
    cases h'
    rfl
  | succ n ih =>
    obtain ⟨v, d₁, later, rfl, rfl, hmakes, hlater⟩ := visits_succ_eq_ok h
    obtain ⟨v', d₁', later', rfl, hmarkov, hmakes', hlater'⟩ := visits_succ_eq_ok h'
    have hchoice := hmakes.choice_eq hm hmakes' hmarkov.symm (hagree.head (by omega))
    obtain rfl := hmakes.draws
    obtain rfl := hmakes'.draws
    rw [List.map_cons, List.map_cons, hchoice]
    congr 1
    rcases hlater with ⟨rfl, rfl, -⟩ | ⟨hn, j, d₂, hmoves, hlater⟩
    · rcases hlater' with ⟨-, rfl, -⟩ | ⟨hn, -⟩
      · rfl
      · exact absurd hn (Nat.lt_irrefl 0)
    · rcases hlater' with ⟨rfl, -, -⟩ | ⟨-, j', d₂', hmoves', hlater'⟩
      · exact absurd hn (Nat.lt_irrefl 0)
      have hafter : Draws.AgreeFor (2 * n) (d.skip 1) (d'.skip 1) := hagree.skip (by omega)
      obtain rfl := hmoves.eq hm hmoves' (hafter.head (by omega))
      obtain rfl := hmoves.draws
      obtain rfl := hmoves'.draws
      exact ih hlater hlater' (hafter.skip (by omega))

/-- A path takes two numbers per stage, wherever it leads. -/
theorem trajectory_draws (hstages : 1 ≤ m.stageCount) {d d' : Draws α} {path : Trajectory α}
    (h : m.trajectory.perform d = (.ok path, d')) : d' = d.skip (2 * m.stageCount) := by
  obtain ⟨first, d₁, hfirst, hvisits⟩ := Transition.perform_bind_eq_ok.mp h
  obtain rfl := sampleIndex_draws hfirst
  rw [visits_draws hvisits, Draws.skip_skip]
  congr 1
  omega

/-- Paths of two models with the same tables make the same choices of the same numbers. -/
theorem trajectory_choices (hm : m.configuration.DrawsAs m'.configuration) {d d' e e' : Draws α}
    {path path' : Trajectory α} (h : m.trajectory.perform d = (.ok path, e))
    (h' : m'.trajectory.perform d' = (.ok path', e'))
    (hagree : Draws.AgreeFor (2 * m.stageCount) d d') :
    path.map Visit.choice = path'.map Visit.choice := by
  obtain ⟨first, d₁, hfirst, hvisits⟩ := Transition.perform_bind_eq_ok.mp h
  obtain ⟨first', d₁', hfirst', hvisits'⟩ := Transition.perform_bind_eq_ok.mp h'
  have hlength : m'.stageCount = m.stageCount := hm.stageCount.symm
  rw [hlength] at hvisits'
  cases hstages : m.stageCount with
  | zero =>
    -- without stages there are no choices
    rw [hstages] at hvisits hvisits'
    cases hvisits
    cases hvisits'
    rfl
  | succ n =>
    rw [hstages] at hvisits hvisits' hagree
    obtain rfl : first = first' := by
      rw [← hm.initial] at hfirst'
      exact sampleIndex_common hfirst hfirst' (hagree.head (by omega))
    obtain rfl := sampleIndex_draws hfirst
    obtain rfl := sampleIndex_draws hfirst'
    exact visits_choices hm hvisits hvisits' (hagree.skip (by omega))

end Model

/-! ## Kernels -/

/-- What is done with sampled paths, one after another: the policy is evaluated, it is
simulated with some variables reported, or cuts are added along every path. -/
inductive Kernel where
  | forward
  | simulate (requested : List Value)
  | backward

namespace Kernel

variable [Scalar α]

/-- So many passes of a kernel on a model and a stream.  Only backward passes change the
model. -/
def passes : Kernel → Nat → Transition (Play α) PUnit
  | forward, n => discard (Play.sampling fun m => m.sampleObjectives n)
  | simulate requested, n => discard (Play.sampling fun m => m.simulate n requested)
  | backward, n => discard (Transition.times n backwardPass)

/-- What passes of a kernel make of the paths that they sample: the objectives that an
evaluation returns, the table that a simulation returns, and the sample points of the stores.
Every pair that can reach the next stage gets the state that each path has left there, and no
other pair gets any. -/
def Makes : Kernel → Play α → List (Trajectory α) → Play α → Prop
  | forward, p, paths, q => q.model = p.model ∧
      (p.model.sampleObjectives paths.length).perform p.draws
        = (.ok (paths.map Trajectory.objective), q.draws)
  | simulate requested, p, paths, q => q.model = p.model ∧
      (p.model.simulate paths.length requested).perform p.draws
        = (.ok (Simulation.table requested p.model.stageCount paths), q.draws)
  | backward, p, paths, q =>
      (∃ buffers, q.model.configuration = p.model.configuration.withBuffers buffers) ∧
      ∀ t i, (q.model.stores.get? t i).map Store.points
        = (p.model.stores.get? t i).map fun s => s.points ++
            if (t, i) ∈ p.model.configuration.passPlaces then
              paths.filterMap fun path => path[t]?.map fun v => v.solution.state
            else []

/-- Whether a path is the one that a kernel samples after so many passes. -/
def Samples (k : Kernel) (p : Play α) (r : Nat) (path : Trajectory α) : Prop :=
  ∃ q draws, (k.passes r).perform p = (.ok ⟨⟩, q) ∧
    q.model.trajectory.perform q.draws = (.ok path, draws)

variable {k k' : Kernel} {p p' q q' : Play α} {n n' r : Nat}

omit [Scalar α] in
/-- Passes that leave the model alone. -/
theorem sampling_eq_ok {op : Model α → Transition (Draws α) β} :
    (discard (Play.sampling op) : Transition (Play α) PUnit).perform p = (.ok ⟨⟩, q)
      ↔ q.model = p.model ∧ ∃ b, (op p.model).perform p.draws = (.ok b, q.draws) := by
  rw [Transition.perform_discard_eq_ok]
  constructor
  · rintro ⟨b, h⟩
    obtain ⟨draws, hop, rfl⟩ := Play.sampling_eq_ok.mp h
    exact ⟨rfl, b, hop⟩
  · rintro ⟨hmodel, b, h⟩
    exact ⟨b, Play.sampling_eq_ok.mpr ⟨q.draws, h, by rw [← hmodel]⟩⟩

/-- An evaluation samples paths. -/
theorem forward_passes_eq_ok :
    (forward.passes n).perform p = (.ok ⟨⟩, q)
      ↔ q.model = p.model ∧
        ∃ paths, (Transition.times n p.model.trajectory).perform p.draws
          = (.ok paths, q.draws) := by
  unfold passes
  rw [sampling_eq_ok, Model.sampleObjectives_eq]
  refine and_congr_right fun _ => ?_
  simp only [Transition.map_eq_ok]
  exact ⟨fun ⟨_, paths, h, _⟩ => ⟨paths, h⟩, fun ⟨paths, h⟩ => ⟨_, paths, h, rfl⟩⟩

/-- A simulation of paths that report what is requested returns their table. -/
theorem simulate_of_paths {requested : List Value} {m : Model α} {d d' : Draws α}
    {paths : List (Trajectory α)} (hnames : requested.forM Named.checkName = .ok ())
    (hpaths : (Transition.times n m.trajectory).perform d = (.ok paths, d'))
    (hchecks : ∀ path ∈ paths, Simulation.checkReported requested path = .ok ()) :
    (m.simulate n requested).perform d
      = (.ok (Simulation.table requested m.stageCount paths), d') :=
  Transition.outcome_bind_eq_ok.mpr ⟨(), hnames, Transition.perform_bind_eq_ok.mpr
    ⟨paths, _, Transition.times_checked_eq_ok.mpr ⟨hpaths, hchecks⟩, rfl⟩⟩

/-- A simulation samples paths that report what is requested. -/
theorem simulate_passes_eq_ok {requested : List Value} :
    ((simulate requested).passes n).perform p = (.ok ⟨⟩, q)
      ↔ q.model = p.model ∧ requested.forM Named.checkName = .ok () ∧
        ∃ paths, (Transition.times n p.model.trajectory).perform p.draws = (.ok paths, q.draws) ∧
          ∀ path ∈ paths, Simulation.checkReported requested path = .ok () := by
  unfold passes
  rw [sampling_eq_ok]
  refine and_congr_right fun _ => ?_
  constructor
  · rintro ⟨table, h⟩
    obtain ⟨_, hnames, h⟩ := Transition.outcome_bind_eq_ok.mp h
    obtain ⟨paths, d, hpaths, h⟩ := Transition.perform_bind_eq_ok.mp h
    cases h
    exact ⟨hnames, paths, Transition.times_checked_eq_ok.mp hpaths⟩
  · rintro ⟨hnames, paths, hpaths, hchecks⟩
    exact ⟨_, simulate_of_paths hnames hpaths hchecks⟩

/-- Passes may be made some at a time. -/
theorem passes_add (k : Kernel) (a b : Nat) :
    (k.passes (a + b)).perform p = (.ok ⟨⟩, q)
      ↔ ∃ p₁, (k.passes a).perform p = (.ok ⟨⟩, p₁) ∧ (k.passes b).perform p₁ = (.ok ⟨⟩, q) := by
  cases k with
  | forward =>
    simp only [forward_passes_eq_ok, Transition.times_add_eq_ok]
    constructor
    · rintro ⟨hmodel, _, first, d, later, hfirst, hlater, rfl⟩
      exact ⟨⟨p.model, d⟩, ⟨rfl, first, hfirst⟩, hmodel, later, hlater⟩
    · rintro ⟨p₁, ⟨hp₁, first, hfirst⟩, hq, later, hlater⟩
      rw [hp₁] at hq hlater
      exact ⟨hq, _, first, p₁.draws, later, hfirst, hlater, rfl⟩
  | simulate requested =>
    simp only [simulate_passes_eq_ok, Transition.times_add_eq_ok]
    constructor
    · rintro ⟨hmodel, hnames, _, ⟨first, d, later, hfirst, hlater, rfl⟩, hchecks⟩
      obtain ⟨hchecks₁, hchecks₂⟩ := List.forall_mem_append.mp hchecks
      exact ⟨⟨p.model, d⟩, ⟨rfl, hnames, first, hfirst, hchecks₁⟩,
        hmodel, hnames, later, hlater, hchecks₂⟩
    · rintro ⟨p₁, ⟨hp₁, hnames, first, hfirst, hchecks₁⟩, hq, -, later, hlater, hchecks₂⟩
      rw [hp₁] at hq hlater
      exact ⟨hq, hnames, _, ⟨first, p₁.draws, later, hfirst, hlater, rfl⟩,
        List.forall_mem_append.mpr ⟨hchecks₁, hchecks₂⟩⟩
  | backward =>
    unfold passes
    simp only [Transition.perform_discard_eq_ok, Transition.times_add_eq_ok]
    constructor
    · rintro ⟨_, first, p₁, later, hfirst, hlater, rfl⟩
      exact ⟨p₁, ⟨first, hfirst⟩, later, hlater⟩
    · rintro ⟨p₁, ⟨first, hfirst⟩, later, hlater⟩
      exact ⟨_, first, p₁, later, hfirst, hlater, rfl⟩

theorem passes_zero (h : (k.passes 0).perform p = (.ok ⟨⟩, q)) :
    q.model = p.model ∧ q.draws = p.draws := by
  cases k with
  | forward =>
    obtain ⟨hmodel, _, hpaths⟩ := forward_passes_eq_ok.mp h
    exact ⟨hmodel, (Prod.mk.inj hpaths).2.symm⟩
  | simulate requested =>
    obtain ⟨hmodel, -, _, hpaths, -⟩ := simulate_passes_eq_ok.mp h
    exact ⟨hmodel, (Prod.mk.inj hpaths).2.symm⟩
  | backward =>
    obtain ⟨_, hcounts⟩ := Transition.perform_discard_eq_ok.mp h
    cases hcounts
    exact ⟨rfl, rfl⟩

/-- A backward pass adds the states of its path to the stores. -/
theorem backwardPass_makes {count : Nat} (h : backwardPass.perform p = (.ok count, q)) :
    ∃ path, p.model.trajectory.perform p.draws = (.ok path, q.draws) ∧
      backward.Makes p [path] q := by
  obtain ⟨path, hpath, hgains⟩ := backwardPass_gains h
  refine ⟨path, hpath, hgains.configuration, fun t i => ?_⟩
  obtain ⟨gains, hgains, hplaces, -, hpoints⟩ := hgains
  rw [hgains.get?_stores, Option.map_map]
  refine Option.map_congr fun s _ => ?_
  rw [Function.comp_apply, Store.gaining_points]
  congr 1
  split
  case isTrue hmem =>
    rw [← hplaces] at hmem
    have hnodup := hplaces ▸ p.model.configuration.nodup_passPlaces
    obtain ⟨g, hg, rfl, rfl, hpair⟩ := Gain.exists_ofPair_eq hnodup hmem
    obtain ⟨⟨v, hv, hpoint⟩, -⟩ := hpoints g hg
    simp [hpair, hv, hpoint]
  case isFalse hmem =>
    rw [Gain.ofPair_eq_nil (hplaces ▸ hmem), List.map_nil]

/-- One pass samples a path of the model that there is, and takes no other numbers. -/
theorem pass_spec (h : (k.passes 1).perform p = (.ok ⟨⟩, q)) :
    ∃ path, p.model.trajectory.perform p.draws = (.ok path, q.draws) ∧ k.Makes p [path] q := by
  cases k with
  | forward =>
    obtain ⟨hmodel, paths, hpaths⟩ := forward_passes_eq_ok.mp h
    obtain ⟨path, d, later, hpath, ⟨⟩, rfl⟩ := Transition.times_succ_eq_ok.mp hpaths
    exact ⟨path, hpath, hmodel, Model.sampleObjectives_eq p.model 1 ▸
      Transition.map_eq_ok.mpr ⟨_, hpaths, rfl⟩⟩
  | simulate requested =>
    obtain ⟨hmodel, hnames, paths, hpaths, hchecks⟩ := simulate_passes_eq_ok.mp h
    obtain ⟨path, d, later, hpath, ⟨⟩, rfl⟩ := Transition.times_succ_eq_ok.mp hpaths
    exact ⟨path, hpath, hmodel, simulate_of_paths hnames hpaths hchecks⟩
  | backward =>
    obtain ⟨counts, hcounts⟩ := Transition.perform_discard_eq_ok.mp h
    obtain ⟨count, p₁, later, hpass, ⟨⟩, -⟩ := Transition.times_succ_eq_ok.mp hcounts
    exact backwardPass_makes hpass

/-- What backward passes make of paths, and what more of them make of more paths. -/
theorem Makes.append {first later : List (Trajectory α)} (h : backward.Makes p first p')
    (h' : backward.Makes p' later q) : backward.Makes p (first ++ later) q := by
  obtain ⟨⟨buffers, hfirst⟩, hpoints⟩ := h
  obtain ⟨⟨buffers', hlater⟩, hpoints'⟩ := h'
  refine ⟨⟨buffers', by rw [hlater, hfirst]; rfl⟩, fun t i => ?_⟩
  have hplaces : p'.model.configuration.passPlaces = p.model.configuration.passPlaces := by
    rw [hfirst]
    rfl
  rw [hpoints', hplaces]
  have hstore := hpoints t i
  cases hs : p.model.stores.get? t i with
  | none =>
    rw [hs, Option.map_none, Option.map_eq_none_iff] at hstore
    rw [hstore, Option.map_none, Option.map_none]
  | some s =>
    rw [hs, Option.map_some, Option.map_eq_some_iff] at hstore
    obtain ⟨s', hs', hpoints⟩ := hstore
    rw [hs', Option.map_some, Option.map_some, hpoints, List.append_assoc]
    split <;> simp

/-- Each backward pass samples a path from the model that the passes before it have left. -/
theorem exists_paths_backward (h : (Kernel.backward.passes n).perform p = (.ok ⟨⟩, q)) :
    ∃ paths, paths.length = n ∧ Kernel.backward.Makes p paths q ∧
      ∀ r path, paths[r]? = some path → Kernel.backward.Samples p r path := by
  induction n generalizing q with
  | zero =>
    obtain ⟨hmodel, -⟩ := passes_zero h
    refine ⟨[], rfl, ⟨⟨p.model.configuration.measure.buffers, by rw [hmodel]; rfl⟩, ?_⟩,
      fun r path hr => nomatch hr⟩
    intro t i
    rw [hmodel]
    refine Option.map_congr fun s _ => ?_
    split <;> exact (List.append_nil _).symm
  | succ n ih =>
    obtain ⟨p₁, hp₁, hlast⟩ := (passes_add .backward n 1).mp h
    obtain ⟨paths, hlength, hmakes, hsamples⟩ := ih hp₁
    obtain ⟨path, hpath, hmade⟩ := pass_spec hlast
    refine ⟨paths ++ [path], by simp [hlength], hmakes.append hmade, fun r path' hr => ?_⟩
    obtain ⟨hlt, -⟩ := List.getElem?_eq_some_iff.mp hr
    rcases Nat.lt_succ_iff_lt_or_eq.mp (hlength ▸ List.length_append ▸ hlt) with hlt | rfl
    · rw [List.getElem?_append_left (hlength.symm ▸ hlt)] at hr
      exact hsamples r path' hr
    · rw [← hlength, List.getElem?_concat_length] at hr
      cases hr
      exact ⟨p₁, _, hp₁, hpath⟩

/-- Passes that are completed have sampled a path each, and made what they make of these. -/
theorem exists_paths (h : (k.passes n).perform p = (.ok ⟨⟩, q)) :
    ∃ paths, paths.length = n ∧ k.Makes p paths q ∧
      ∀ r path, paths[r]? = some path → k.Samples p r path := by
  cases k with
  | forward =>
    obtain ⟨hmodel, paths, hpaths⟩ := forward_passes_eq_ok.mp h
    have hlength := Transition.times_length hpaths
    refine ⟨paths, hlength, ⟨hmodel, ?_⟩, fun r path hr => ?_⟩
    · rw [hlength, Model.sampleObjectives_eq]
      exact Transition.map_eq_ok.mpr ⟨paths, hpaths, rfl⟩
    · obtain ⟨d, d', hbefore, hpath⟩ := Transition.times_getElem hpaths hr
      exact ⟨⟨p.model, d⟩, d', forward_passes_eq_ok.mpr ⟨rfl, _, hbefore⟩, hpath⟩
  | simulate requested =>
    obtain ⟨hmodel, hnames, paths, hpaths, hchecks⟩ := simulate_passes_eq_ok.mp h
    have hlength := Transition.times_length hpaths
    refine ⟨paths, hlength, ⟨hmodel, ?_⟩, fun r path hr => ?_⟩
    · rw [hlength]
      exact simulate_of_paths hnames hpaths hchecks
    · obtain ⟨d, d', hbefore, hpath⟩ := Transition.times_getElem hpaths hr
      exact ⟨⟨p.model, d⟩, d', simulate_passes_eq_ok.mpr ⟨rfl, hnames, _, hbefore,
        fun path hmem => hchecks path (List.mem_of_mem_take hmem)⟩, hpath⟩
  | backward => exact exists_paths_backward h

/-- What passes make of paths leaves the tables that paths are drawn from alone. -/
theorem Makes.drawsAs {paths : List (Trajectory α)} (h : k.Makes p paths q) :
    p.model.configuration.DrawsAs q.model.configuration := by
  cases k with
  | forward =>
    rw [h.1]
    exact .refl _
  | simulate requested =>
    rw [h.1]
    exact .refl _
  | backward =>
    obtain ⟨⟨buffers, hconfiguration⟩, -⟩ := h
    rw [hconfiguration]
    exact ⟨rfl, rfl, rfl, rfl⟩

/-- After so many passes the tables are what they were, and two numbers per stage and pass
have been drawn. -/
theorem passes_spec (hstages : 1 ≤ p.model.stageCount) :
    ∀ {n : Nat} {q : Play α}, (k.passes n).perform p = (.ok ⟨⟩, q) →
      p.model.configuration.DrawsAs q.model.configuration ∧
        q.draws = p.draws.skip (2 * p.model.stageCount * n)
  | 0, q, h => by
    obtain ⟨hmodel, hdraws⟩ := passes_zero h
    rw [hmodel]
    exact ⟨.refl _, hdraws⟩
  | n + 1, q, h => by
    obtain ⟨p₁, hp₁, hq⟩ := (passes_add k n 1).mp h
    obtain ⟨htables, hdraws⟩ := passes_spec hstages hp₁
    obtain ⟨path, hpath, hmakes⟩ := pass_spec hq
    have hcount : p₁.model.stageCount = p.model.stageCount := htables.stageCount.symm
    refine ⟨htables.trans hmakes.drawsAs, ?_⟩
    rw [Model.trajectory_draws (hcount ▸ hstages) hpath, hdraws, Draws.skip_skip, hcount,
      Nat.mul_succ]

/-- Common random numbers.  Passes that are completed have taken two numbers per stage each,
and what they have made is made of the paths that they have sampled.  The Markov states and
scenarios of each of these paths are those of the path that any kernel samples in its place,
for any model with the same tables, from any stream with the same numbers there: those between
the numbers of the passes before it and those of the passes after it. -/
theorem samples_common (hstages : 1 ≤ p.model.stageCount)
    (h : (k.passes n).perform p = (.ok ⟨⟩, q)) :
    (∀ r ≤ n, ∃ p₁, (k.passes r).perform p = (.ok ⟨⟩, p₁) ∧
      p₁.draws = p.draws.skip (2 * p.model.stageCount * r)) ∧
    ∃ paths, paths.length = n ∧ k.Makes p paths q ∧
      ∀ r path, paths[r]? = some path → k.Samples p r path ∧ path.length = p.model.stageCount ∧
        ∀ (k' : Kernel) (p' : Play α) (path' : Trajectory α),
          p.model.configuration.DrawsAs p'.model.configuration →
          Draws.AgreeFor (2 * p.model.stageCount) (p.draws.skip (2 * p.model.stageCount * r))
            (p'.draws.skip (2 * p.model.stageCount * r)) →
          k'.Samples p' r path' → path'.map Visit.choice = path.map Visit.choice := by
  constructor
  · intro r hr
    rw [← Nat.add_sub_cancel' hr, passes_add] at h
    obtain ⟨p₁, hp₁, -⟩ := h
    exact ⟨p₁, hp₁, (passes_spec hstages hp₁).2⟩
  · obtain ⟨paths, hcount, hmakes, hsamples⟩ := exists_paths h
    refine ⟨paths, hcount, hmakes, fun r path hr => ?_⟩
    have hsampled := hsamples r path hr
    obtain ⟨p₁, draws, hp₁, hpath⟩ := hsampled
    obtain ⟨htables, hdraws⟩ := passes_spec hstages hp₁
    have hlength := (Model.length_trajectory hpath).trans htables.stageCount.symm
    refine ⟨hsamples r path hr, hlength, fun k' p' path' hcommon hagree hsamples' => ?_⟩
    obtain ⟨p₁', draws', hp₁', hpath'⟩ := hsamples'
    have hcount' : p'.model.stageCount = p.model.stageCount := hcommon.stageCount.symm
    obtain ⟨htables', hdraws'⟩ := passes_spec (hcount' ▸ hstages) hp₁'
    rw [hcount'] at hdraws'
    have hsame : p₁.model.stageCount = p.model.stageCount := htables.stageCount.symm
    rw [← hdraws, ← hdraws', ← hsame] at hagree
    have hboth := (htables.symm.trans hcommon).trans htables'
    exact (Model.trajectory_choices hboth hpath hpath' hagree).symm

/-- A stage with the scenarios of the crossing, all of whose figures are others. -/
def wading : StageProblem ℚ where
  stateCount := 2
  probabilities := Model.crossing.probabilities
  answer _ x k := .ok
    { objective := 7 - k, stageObjective := 2 * k, duals := [1, 0], state := x.reverse
      values := [("depth", k)] }

/-- A model with the tables of the crossing, and nothing else in common with it. -/
def wadingModel : Model ℚ where
  configuration :=
    { Model.crossingModel.configuration with
      sense := .max, initialState := [4, 5], confidence := 3 / 4, bound := some (.finite 9)
      measure := { rule := .nested (1 / 4) (1 / 2) 0 }
      builder := fun _ _ => .ok (.problem wading) }
  stateCount := 2
  problems := Grid.ofFn 3 2 fun _ _ => wading
  stores := Grid.ofFn 3 2 fun _ _ => Store.empty 2

/-- Two backward passes over the crossing and two simulations of the other model.  After cuts
have been added along the first path, the second one still makes the choices of the second
path that the simulation tabulates. -/
theorem samples_common_crossing :
    let p : Play ℚ := ⟨Model.crossingModel, .cycle (1 / 4) [1 / 2, 3 / 4, 0, 7 / 8]⟩
    let p' : Play ℚ := ⟨wadingModel, .cycle (1 / 4) [1 / 2, 3 / 4, 0, 7 / 8]⟩
    ∃ q q' path₀ path path₀' path', backward.Makes p [path₀, path] q ∧
      (simulate ["depth"]).Makes p' [path₀', path'] q' ∧
      backward.Samples p 1 path ∧ (simulate ["depth"]).Samples p' 1 path' ∧
      path.length = 3 ∧ path'.map Visit.choice = path.map Visit.choice := by
  intro p p'
  obtain ⟨q, hbackward⟩ := Transition.exists_perform_of_toOption (backward.passes 2) p (b := ⟨⟩)
    (by decide +kernel)
  obtain ⟨q', hsimulate⟩ := Transition.exists_perform_of_toOption ((simulate ["depth"]).passes 2)
    p' (b := ⟨⟩) (by decide +kernel)
  obtain ⟨-, paths, hcount, hmakes, hpaths⟩ := samples_common (by decide) hbackward
  obtain ⟨-, paths', hcount', hmakes', hpaths'⟩ := samples_common (by decide) hsimulate
  obtain ⟨path₀, path, rfl⟩ := List.length_eq_two.mp hcount
  obtain ⟨path₀', path', rfl⟩ := List.length_eq_two.mp hcount'
  obtain ⟨hpath, hlength, hcommon⟩ := hpaths 1 path rfl
  obtain ⟨hpath', -⟩ := hpaths' 1 path' rfl
  exact ⟨q, q', path₀, path, path₀', path', hmakes, hmakes', hpath, hpath', hlength,
    hcommon _ p' path' ⟨rfl, rfl, rfl, rfl⟩ (fun _ _ => rfl) hpath'⟩

end Kernel

end Multistage
