/-
Multistage.Proofs.Policy.Pass — what a backward pass adds to a model.

A pass makes one cut after another.  A cut goes to the store and to the problem of one
pair, together with the state that it was built at: this is a `Gain`.  `Model.gaining` is a
model after a list of gains, of which nothing else has changed but what is in the scratch
buffers of the measure, and `Model.GainsEach` judges an operation by the gains that it
makes.  The judgement is followed from one cut (`addCutAt_gains`) over the cuts of a stage
(`addStageCuts_gains`) to a whole pass (`backwardPass_gains`).

What the cuts are is said by `Configuration.IsCutOf`.  The children that a cut was built
of have been solved before the pass went on to earlier stages, and cuts of earlier stages
do not change what children are (`Gains.children_eq`).  So they are the children in the
model that the pass leaves, with all cuts of the pass.
-/
import Multistage.Proofs.Policy.Children
import Multistage.Proofs.Policy.Trajectory
import Multistage.Proofs.Round.Rebuild

namespace Multistage

variable {α β : Type}

/-! ## Gains -/

/-- A cut that a pair of stage and Markov state gets, and the state that it was built at. -/
structure Gain (α : Type) where
  stage : Nat
  markov : Nat
  cut : Cut α
  point : Point α

namespace Gain

/-- The pair that gains. -/
def place (g : Gain α) : Nat × Nat := (g.stage, g.markov)

/-- What one pair gains. -/
def ofPair (gains : List (Gain α)) (t i : Nat) : List (Gain α) :=
  gains.filter fun g => g.place = (t, i)

theorem length_ofPair (gains : List (Gain α)) (t i : Nat) :
    (ofPair gains t i).length = (gains.map place).count (t, i) := by
  rw [ofPair, List.count_eq_countP, List.countP_map, ← List.countP_eq_length_filter]
  refine List.countP_congr fun g _ => ?_
  simp

theorem ofPair_eq_nil {gains : List (Gain α)} {t i : Nat} (h : (t, i) ∉ gains.map place) :
    ofPair gains t i = [] := by
  rw [← List.length_eq_zero_iff, length_ofPair, List.count_eq_zero_of_not_mem h]

/-- A pair that is listed once has one gain. -/
theorem exists_ofPair_eq {gains : List (Gain α)} {t i : Nat} (hnodup : (gains.map place).Nodup)
    (h : (t, i) ∈ gains.map place) :
    ∃ g ∈ gains, g.stage = t ∧ g.markov = i ∧ ofPair gains t i = [g] := by
  obtain ⟨g, hg⟩ := List.length_eq_one_iff.mp
    ((length_ofPair gains t i).trans (List.count_eq_one_of_mem hnodup h))
  have hmem : g ∈ ofPair gains t i := by rw [hg]; exact List.mem_singleton_self g
  obtain ⟨hgains, hplace⟩ := List.mem_filter.mp hmem
  obtain ⟨hstage, hmarkov⟩ := Prod.mk.inj (of_decide_eq_true hplace)
  exact ⟨g, hgains, hstage, hmarkov, hg⟩

end Gain

/-- A store after some gains. -/
def Store.gaining (s : Store α) : List (Gain α) → Store α
  | [] => s
  | gains =>
    { s with
      cuts := s.cuts ++ gains.map Gain.cut
      points := s.points ++ gains.map Gain.point
      votes := none }

namespace Store

variable (s : Store α) (gains later : List (Gain α))

@[simp] theorem gaining_nil : s.gaining [] = s := rfl

@[simp] theorem gaining_stateCount : (s.gaining gains).stateCount = s.stateCount := by
  cases gains <;> rfl

@[simp] theorem gaining_cuts : (s.gaining gains).cuts = s.cuts ++ gains.map Gain.cut := by
  cases gains with
  | nil => simp
  | cons g gains => rfl

@[simp] theorem gaining_points : (s.gaining gains).points = s.points ++ gains.map Gain.point := by
  cases gains with
  | nil => simp
  | cons g gains => rfl

theorem gaining_append : (s.gaining gains).gaining later = s.gaining (gains ++ later) := by
  cases gains with
  | nil => rfl
  | cons g gains =>
    cases later with
    | nil => simp
    | cons h later => simp [gaining]

/-- What is appended fits. -/
theorem append_eq_ok {c : Cut α} {x : Point α} {s s' : Store α}
    (h : (append c (some x)).perform s = (.ok ⟨⟩, s')) :
    (c.coefficients.length : Int) = s.stateCount ∧ (x.length : Int) = s.stateCount ∧
      s' = { s with cuts := s.cuts ++ [c], points := s.points ++ [x], votes := none } := by
  unfold append addCut addPoint at h
  simp only [Transition.perform_bind_eq_ok, Transition.perform_get, Transition.perform_modify,
    Transition.outcome_eq_ok, checkCut_eq_ok, checkPoint_eq_ok] at h
  obtain ⟨_, _, ⟨_, _, ⟨⟩, _, _, ⟨hcut, rfl⟩, ⟨⟩⟩, _, _, ⟨⟩, _, _, ⟨hpoint, rfl⟩, ⟨⟩⟩ := h
  exact ⟨hcut, hpoint, rfl⟩

end Store

/-- A problem after some gains. -/
def StageProblem.gaining (p : StageProblem α) (gains : List (Gain α)) : StageProblem α :=
  { p with cuts := p.cuts ++ gains.map Gain.cut }

@[simp] theorem StageProblem.gaining_nil (p : StageProblem α) : p.gaining [] = p := by
  simp [gaining]

theorem StageProblem.gaining_append (p : StageProblem α) (gains later : List (Gain α)) :
    (p.gaining gains).gaining later = p.gaining (gains ++ later) := by
  simp [gaining]

namespace Model

/-- A model after some gains. -/
def gaining (m : Model α) (gains : List (Gain α)) (buffers : Buffers α) : Model α :=
  { m with
    configuration := m.configuration.withBuffers buffers
    stores := m.stores.mapEntries fun t i s => s.gaining (Gain.ofPair gains t i)
    problems := m.problems.mapEntries fun t i p => p.gaining (Gain.ofPair gains t i) }

theorem gaining_nil (m : Model α) (buffers : Buffers α) :
    m.gaining [] buffers = { m with configuration := m.configuration.withBuffers buffers } := by
  simp [gaining, Gain.ofPair]

theorem gaining_gaining (m : Model α) (gains later : List (Gain α)) (buffers buffers' : Buffers α) :
    (m.gaining gains buffers).gaining later buffers' = m.gaining (gains ++ later) buffers' := by
  simp [gaining, Grid.mapEntries_mapEntries, Store.gaining_append, StageProblem.gaining_append,
    Gain.ofPair, Configuration.withBuffers]

/-- Whether a pair has a store and a problem, and a gain has the dimension of the store. -/
def Takes (m : Model α) (g : Gain α) : Prop :=
  ∃ s p, m.stores.get? g.stage g.markov = some s ∧ m.problems.get? g.stage g.markov = some p ∧
    (g.cut.coefficients.length : Int) = s.stateCount ∧ (g.point.length : Int) = s.stateCount

/-- Whether a model has made some gains, and nothing else has changed but the contents of
the scratch buffers. -/
structure Gains (m : Model α) (gains : List (Gain α)) (m' : Model α) : Prop where
  takes : ∀ g ∈ gains, m.Takes g
  eq : ∃ buffers, m' = m.gaining gains buffers

namespace Gains

variable {m m' m'' : Model α} {gains later : List (Gain α)}

theorem refl (m : Model α) : m.Gains [] m where
  takes := by simp
  eq := ⟨m.configuration.measure.buffers, (gaining_nil m _).symm⟩

theorem get?_stores (h : m.Gains gains m') (t i : Nat) :
    m'.stores.get? t i = (m.stores.get? t i).map (·.gaining (Gain.ofPair gains t i)) := by
  obtain ⟨buffers, rfl⟩ := h.eq
  exact Grid.get?_mapEntries ..

theorem get?_problems (h : m.Gains gains m') (t i : Nat) :
    m'.problems.get? t i = (m.problems.get? t i).map (·.gaining (Gain.ofPair gains t i)) := by
  obtain ⟨buffers, rfl⟩ := h.eq
  exact Grid.get?_mapEntries ..

theorem fits_stores (h : m.Gains gains m') (stages states : Nat) :
    m'.stores.fits stages states = m.stores.fits stages states := by
  obtain ⟨buffers, rfl⟩ := h.eq
  exact Grid.fits_mapEntries ..

theorem trans (h : m.Gains gains m') (h' : m'.Gains later m'') : m.Gains (gains ++ later) m'' where
  takes g hg := by
    rcases List.mem_append.mp hg with hg | hg
    · exact h.takes g hg
    · obtain ⟨s', p', hs', hp', hcut, hpoint⟩ := h'.takes g hg
      rw [h.get?_stores, Option.map_eq_some_iff] at hs'
      rw [h.get?_problems, Option.map_eq_some_iff] at hp'
      obtain ⟨s, hs, rfl⟩ := hs'
      obtain ⟨p, hp, rfl⟩ := hp'
      exact ⟨s, p, hs, hp, by simpa using hcut, by simpa using hpoint⟩
  eq := by
    obtain ⟨buffers, rfl⟩ := h.eq
    obtain ⟨buffers', rfl⟩ := h'.eq
    exact ⟨buffers', gaining_gaining ..⟩

end Gains

/-- Whether an operation has made so many gains at the given places, in this order, and each
of them is as described. -/
def GainsEach (m : Model α) (places : List (Nat × Nat)) (described : Gain α → Prop) (n : Nat)
    (m' : Model α) : Prop :=
  ∃ gains, m.Gains gains m' ∧ gains.map Gain.place = places ∧ gains.length = n ∧
    ∀ g ∈ gains, described g

namespace GainsEach

variable {m m' m'' : Model α} {ps qs : List (Nat × Nat)} {P Q : Gain α → Prop} {n k : Nat}

theorem refl (m : Model α) (P : Gain α → Prop) : m.GainsEach [] P 0 m :=
  ⟨[], .refl m, rfl, rfl, by simp⟩

theorem trans (h : m.GainsEach ps P n m') (h' : m'.GainsEach qs P k m'') :
    m.GainsEach (ps ++ qs) P (n + k) m'' := by
  obtain ⟨gains, hgains, rfl, rfl, hP⟩ := h
  obtain ⟨later, hlater, rfl, rfl, hP'⟩ := h'
  refine ⟨gains ++ later, hgains.trans hlater, List.map_append, List.length_append, ?_⟩
  exact fun g hg => (List.mem_append.mp hg).elim (hP g) (hP' g)

theorem imp (h : m.GainsEach ps P n m') (hPQ : ∀ g, P g → Q g) : m.GainsEach ps Q n m' := by
  obtain ⟨gains, hgains, hplaces, hlen, hP⟩ := h
  exact ⟨gains, hgains, hplaces, hlen, fun g hg => hPQ g (hP g hg)⟩

theorem configuration (h : m.GainsEach ps P n m') :
    ∃ buffers, m'.configuration = m.configuration.withBuffers buffers := by
  obtain ⟨_, ⟨-, buffers, rfl⟩, -⟩ := h
  exact ⟨buffers, rfl⟩

end GainsEach

end Model

/-! ## Places that get cuts -/

namespace Configuration

variable [Scalar α]

/-- Whether a pair reaches the next stage: whether its transition row has a positive
entry. -/
def reaches (c : Configuration α) (t i : Nat) : Bool :=
  match c.transition.get? t i with
  | some row => row.any fun p => decide (0 < p)
  | none => false

/-- The pairs of a stage that get a cut when the stage has its turn. -/
def stagePlaces (c : Configuration α) (t : Nat) : List (Nat × Nat) :=
  ((List.range c.markovCount).filter (c.reaches t)).map fun i => (t, i)

/-- The pairs that get a cut in a backward pass. -/
def passPlaces (c : Configuration α) : List (Nat × Nat) :=
  (List.range (c.stageCount - 1)).reverse.flatMap c.stagePlaces

theorem mem_stagePlaces {c : Configuration α} {t t' i : Nat} :
    (t', i) ∈ c.stagePlaces t ↔ t' = t ∧ i < c.markovCount ∧ c.reaches t i = true := by
  unfold stagePlaces
  simp only [List.mem_map, List.mem_filter, List.mem_range, Prod.mk.injEq]
  constructor
  · rintro ⟨i', h, rfl, rfl⟩
    exact ⟨rfl, h⟩
  · rintro ⟨rfl, h⟩
    exact ⟨i, h, rfl, rfl⟩

theorem mem_passPlaces {c : Configuration α} {t i : Nat} :
    (t, i) ∈ c.passPlaces ↔ t + 1 < c.stageCount ∧ i < c.markovCount ∧ c.reaches t i = true := by
  unfold passPlaces
  simp only [List.mem_flatMap, List.mem_reverse, List.mem_range, mem_stagePlaces]
  constructor
  · rintro ⟨t', ht, rfl, h⟩
    exact ⟨by omega, h⟩
  · rintro ⟨ht, h⟩
    exact ⟨t, by omega, rfl, h⟩

theorem nodup_passPlaces (c : Configuration α) : c.passPlaces.Nodup := by
  refine List.nodup_flatMap.mpr ⟨fun t _ => ?_, ?_⟩
  · exact (List.nodup_range.filter _).map fun i j h => (Prod.mk.inj h).2
  · refine (List.nodup_reverse.mpr List.nodup_range).imp fun h e he he' => ?_
    exact h ((mem_stagePlaces.mp he).1.symm.trans (mem_stagePlaces.mp he').1)

end Configuration

/-! ## Models with random numbers -/

namespace Play

theorem sampling_eq_ok {op : Model α → Transition (Draws α) β} {p p' : Play α} {b : β} :
    (sampling op).perform p = (.ok b, p')
      ↔ ∃ draws, (op p.model).perform p.draws = (.ok b, draws) ∧ p' = { p with draws } := by
  unfold sampling
  rw [Transition.perform_of]
  dsimp only
  constructor
  · intro h
    obtain ⟨hb, rfl⟩ := Prod.mk.inj h
    exact ⟨_, Prod.ext hb rfl, rfl⟩
  · rintro ⟨draws, h, rfl⟩
    rw [h]

theorem onModel_eq_ok {op : Transition (Model α) β} {p p' : Play α} {b : β} :
    (onModel op).perform p = (.ok b, p')
      ↔ ∃ m, op.perform p.model = (.ok b, m) ∧ p' = { p with model := m } :=
  Transition.focus_eq_ok

end Play

/-! ## Cuts of children -/

section Cuts

variable [Scalar α]

/-- Whether a cut is what the measure answers to the duals and objectives of children with
their weights.  Where the scenario probabilities of the next stage are plain vectors, this is
its answer for all contents of the scratch buffers. -/
def Configuration.IsCutOf (c : Configuration α) (t i : Nat) (x : Point α)
    (children : List (Child α)) (cut : Cut α) : Prop :=
  ∃ row duals weights stacked b, c.transition.get? t i = some row ∧
    Tensor.stack (children.map fun child => Tensor.vector child.solution.duals) = .ok duals ∧
    List.Forall₂ (c.IsWeight t row) children weights ∧ Tensor.stack weights = .ok stacked ∧
    Batch.ofTensors (Tensor.vector x) duals
      (Tensor.vector (children.map fun child => child.solution.objective)) stacked = .ok b ∧
    (∃ buffers, c.measure.rule.answer c.sense b (some (.int t, .int i)) buffers = .ok cut) ∧
    ((∀ j q, c.scenarios.get? (t + 1) j = some q → ∃ v, q = Tensor.vector v) → ∀ buffers,
      c.measure.rule.answer c.sense b (some (.int t, .int i)) buffers = .ok cut)

/-- Weights of vectors of scenario probabilities form a vector. -/
theorem Configuration.stack_vectors {c : Configuration α} {t : Nat} {row : List α}
    (hvectors : ∀ j q, c.scenarios.get? (t + 1) j = some q → ∃ v, q = Tensor.vector v)
    {children : List (Child α)} {weights : List (Tensor α)} {stacked : Tensor α}
    (h : List.Forall₂ (c.IsWeight t row) children weights)
    (hstacked : Tensor.stack weights = .ok stacked) : ∃ v, stacked = Tensor.vector v := by
  have hnumbers : ∃ v : List α, weights = v.map Tensor.single := by
    clear hstacked
    induction h with
    | nil => exact ⟨[], rfl⟩
    | cons hw _ ih =>
      obtain ⟨p, q, part, -, hq, hpart, rfl⟩ := hw
      obtain ⟨u, rfl⟩ := hvectors _ q hq
      rw [Tensor.parts_vector, List.getElem?_map, Option.map_eq_some_iff] at hpart
      obtain ⟨a, -, rfl⟩ := hpart
      obtain ⟨v, rfl⟩ := ih
      exact ⟨p * a :: v, rfl⟩
  obtain ⟨v, rfl⟩ := hnumbers
  rw [Tensor.stack_single] at hstacked
  exact ⟨v, (Except.ok.inj hstacked).symm⟩

namespace Model

/-- A cut that the measure of a model has answered. -/
theorem isCutOf_of_generate {m m' : Model α} {t i : Nat} {x : Point α} {children : List (Child α)}
    {row : List α} {duals stacked : Tensor α} {cut : Cut α}
    (hrow : m.transitionRow t i = .ok row) (hduals : stackDuals children = .ok duals)
    (hweights : (do Tensor.stack (← children.mapM (m.weight t row))) = .ok stacked)
    (hcut : (onMeasure (RiskMeasure.generate (.ok m.configuration.sense)
      (batch x children duals stacked) (some (.int t, .int i)))).perform m = (.ok cut, m')) :
    m.configuration.IsCutOf t i x children cut ∧ m.Gains [] m' := by
  obtain ⟨weights, hweights, hstacked⟩ := bind_eq_ok.mp hweights
  have hweights' := (mapM_eq_ok.mp hweights).imp fun _ _ h => weight_eq_ok.mp h
  have hanswer : ((m.configuration.measure.rule.generate (.ok m.configuration.sense)
      (batch x children duals stacked) (some (.int t, .int i))).perform
        m.configuration.measure.buffers).1 = .ok cut := (Prod.mk.inj hcut).1
  obtain rfl := (Prod.mk.inj hcut).2
  refine ⟨?_, by simp, _, (gaining_nil m _).symm⟩
  cases hb : batch x children duals stacked with
  | error e =>
    obtain ⟨why, hwhy⟩ := Rule.generate_refused m.configuration.measure.rule
      (.ok m.configuration.sense) _ (some (.int t, .int i)) (.inl ⟨e, hb⟩)
    rw [hwhy] at hanswer
    cases hanswer
  | ok b =>
    rw [hb] at hanswer
    refine ⟨row, duals, weights, stacked, b, Grid.entry_eq_ok.mp hrow, hduals, hweights',
      hstacked, hb, ⟨_, hanswer⟩, fun hvectors buffers => ?_⟩
    obtain ⟨v, rfl⟩ := Configuration.stack_vectors hvectors hweights' hstacked
    exact (Rule.answer_flat (Batch.ofTensors_isFlat hb) _ _ _ _ _).trans hanswer

omit [Scalar α] in
/-- A cut is written to the store and to the problem of a pair. -/
theorem gains_of_writes {m m' m'' : Model α} {t i : Nat} {c : Cut α} {x : Point α}
    (hstore : (onStore t i (Store.append c (some x))).perform m = (.ok ⟨⟩, m'))
    (hproblem : (onProblem t i fun p => p.addCut c).perform m' = (.ok ⟨⟩, m'')) :
    m.Gains [⟨t, i, c, x⟩] m'' := by
  obtain ⟨s, s', hs, happend, rfl⟩ := onStore_eq_ok.mp hstore
  obtain ⟨p, p', hp, hput, rfl⟩ := onProblem_eq_ok.mp hproblem
  obtain ⟨hcut, hpoint, rfl⟩ := Store.append_eq_ok happend
  obtain ⟨-, rfl⟩ := StageProblem.addCut_eq_ok.mp hput
  have hself : Gain.ofPair [(⟨t, i, c, x⟩ : Gain α)] t i = [⟨t, i, c, x⟩] := by
    simp [Gain.ofPair, Gain.place]
  have hothers : ∀ t' i', (t', i') ≠ (t, i) → Gain.ofPair [(⟨t, i, c, x⟩ : Gain α)] t' i' = [] :=
    fun t' i' hother => Gain.ofPair_eq_nil (by simpa [Gain.place] using hother)
  refine ⟨by simpa [Takes] using ⟨s, hs, ⟨p, hp⟩, hcut, hpoint⟩,
    m.configuration.measure.buffers, ?_⟩
  unfold gaining
  congr 1
  · rw [← Grid.put_eq_mapEntries_of_get? hp fun t' i' p' hother => by
      rw [hothers t' i' hother, StageProblem.gaining_nil], hself]
    rfl
  · rw [← Grid.put_eq_mapEntries_of_get? hs fun t' i' s' hother => by
      rw [hothers t' i' hother, Store.gaining_nil], hself]
    rfl

/-- A pair that reaches the next stage gains a cut of the children. -/
theorem addCutAt_gains {t i n : Nat} {x : Point α} {children : List (Child α)} {duals : Tensor α}
    {m m' : Model α} (hduals : stackDuals children = .ok duals)
    (h : (addCutAt t x children duals i).perform m = (.ok n, m')) :
    m.GainsEach (if m.configuration.reaches t i then [(t, i)] else [])
      (fun g => g.stage = t ∧ g.point = x ∧ m.configuration.IsCutOf t g.markov x children g.cut)
      n m' := by
  unfold addCutAt at h
  rw [Transition.perform_bind_ok (Transition.perform_get m)] at h
  obtain ⟨row, hrow, h⟩ := Transition.outcome_bind_eq_ok.mp h
  have hreaches : m.configuration.reaches t i = row.any fun p => decide (0 < p) := by
    unfold Configuration.reaches
    rw [Grid.entry_eq_ok.mp hrow]
  rw [hreaches]
  by_cases hany : (row.any fun p => decide (0 < p)) = true
  · rw [if_pos hany] at h ⊢
    obtain ⟨stacked, hweights, h⟩ := Transition.outcome_bind_eq_ok.mp h
    obtain ⟨cut, m₁, hmeasure, h⟩ := Transition.perform_bind_eq_ok.mp h
    obtain ⟨_, m₂, hstore, h⟩ := Transition.perform_bind_eq_ok.mp h
    obtain ⟨_, m₃, hproblem, h⟩ := Transition.perform_bind_eq_ok.mp h
    cases h
    obtain ⟨hcut, hgains⟩ := isCutOf_of_generate hrow hduals hweights hmeasure
    exact ⟨[⟨t, i, cut, x⟩], hgains.trans (gains_of_writes hstore hproblem), rfl, rfl,
      by simpa using hcut⟩
  · rw [if_neg hany] at h ⊢
    cases h
    exact .refl m _

/-- The cuts of a stage, for its Markov states one after another. -/
theorem addCuts_gains {t : Nat} {x : Point α} {children : List (Child α)} {duals : Tensor α}
    (hduals : stackDuals children = .ok duals) (is : List Nat) :
    ∀ {m m' : Model α} {counts : List Nat},
      (is.mapM (addCutAt t x children duals)).perform m = (.ok counts, m') →
      m.GainsEach ((is.filter (m.configuration.reaches t)).map fun i => (t, i))
        (fun g => g.stage = t ∧ g.point = x ∧ m.configuration.IsCutOf t g.markov x children g.cut)
        counts.sum m' := by
  induction is with
  | nil =>
    intro m m' counts h
    cases h
    exact .refl m _
  | cons i is ih =>
    intro m m' counts h
    rw [List.mapM_cons] at h
    obtain ⟨n, m₁, hfirst, h⟩ := Transition.perform_bind_eq_ok.mp h
    obtain ⟨later, m₂, hlater, h⟩ := Transition.perform_bind_eq_ok.mp h
    cases h
    have hgains := addCutAt_gains hduals hfirst
    obtain ⟨buffers, hconfiguration⟩ := hgains.configuration
    -- the buffers have a part neither in the places nor in what is said of the cuts
    have hrest := ih hlater
    rw [hconfiguration] at hrest
    rw [List.sum_cons, List.filter_cons]
    split
    · rename_i hreaches
      rw [hreaches] at hgains
      exact hgains.trans hrest
    · rename_i hreaches
      rw [Bool.not_eq_true] at hreaches
      rw [hreaches] at hgains
      exact hgains.trans hrest

/-- Every pair of a stage that reaches the next one gains a cut of its children. -/
theorem addStageCuts_gains {t n : Nat} {x : Point α} {m m' : Model α}
    (h : (addStageCuts t x).perform m = (.ok n, m')) :
    ∃ children, m.children (t + 1) x = .ok children ∧
      m.GainsEach (m.configuration.stagePlaces t)
        (fun g => g.stage = t ∧ g.point = x ∧ m.configuration.IsCutOf t g.markov x children g.cut)
        n m' := by
  unfold addStageCuts at h
  rw [Transition.perform_bind_ok (Transition.perform_get m)] at h
  obtain ⟨children, hchildren, h⟩ := Transition.outcome_bind_eq_ok.mp h
  obtain ⟨duals, hduals, h⟩ := Transition.outcome_bind_eq_ok.mp h
  rw [Transition.perform_bind_ok (Transition.perform_get m)] at h
  obtain ⟨counts, m₁, hcounts, h⟩ := Transition.perform_bind_eq_ok.mp h
  cases h
  exact ⟨children, hchildren, addCuts_gains hduals _ hcounts⟩

/-! ## Whole passes -/

omit [Scalar α] in
/-- Gains of other stages do not change what children are. -/
theorem Gains.children_eq {m m' : Model α} {gains : List (Gain α)} {t : Nat}
    (h : m.Gains gains m') (hothers : ∀ g ∈ gains, g.stage ≠ t) (x : Point α) :
    m'.children t x = m.children t x := by
  have hproblem : ∀ j, m'.problems.entry t j = m.problems.entry t j := by
    intro j
    have hnil : Gain.ofPair gains t j = [] := by
      refine Gain.ofPair_eq_nil fun hmem => ?_
      obtain ⟨g, hg, hplace⟩ := List.mem_map.mp hmem
      exact hothers g hg (Prod.mk.inj hplace).1
    unfold Grid.entry
    rw [h.get?_problems, hnil]
    simp
  obtain ⟨buffers, hm'⟩ := h.eq
  have houtcomes : m'.outcomes t = m.outcomes t := by
    rw [hm']
    rfl
  unfold children solveAt
  rw [houtcomes]
  simp only [hproblem]

/-- What a pass along turns gains: at the state of each turn one cut of the children there,
for every pair of the stage that reaches the next one.  Turns go backwards. -/
theorem addTurns_gains (turns : List (Nat × Point α)) :
    ∀ {m m' : Model α} {counts : List Nat}, turns.Pairwise (fun e e' => e'.1 < e.1) →
      (turns.mapM fun e => addStageCuts e.1 e.2).perform m = (.ok counts, m') →
      m.GainsEach (turns.flatMap fun e => m.configuration.stagePlaces e.1)
        (fun g => (g.stage, g.point) ∈ turns ∧ ∃ children,
          m'.children (g.stage + 1) g.point = .ok children ∧
            m.configuration.IsCutOf g.stage g.markov g.point children g.cut) counts.sum m' := by
  induction turns with
  | nil =>
    intro m m' counts _ h
    cases h
    exact .refl m _
  | cons turn turns ih =>
    intro m m' counts hturns h
    obtain ⟨t, x⟩ := turn
    obtain ⟨hearlier, hturns⟩ := List.pairwise_cons.mp hturns
    rw [List.mapM_cons] at h
    obtain ⟨n, m₁, hfirst, h⟩ := Transition.perform_bind_eq_ok.mp h
    obtain ⟨later, m₂, hlater, h⟩ := Transition.perform_bind_eq_ok.mp h
    cases h
    obtain ⟨children, hchildren, hstage⟩ := addStageCuts_gains hfirst
    obtain ⟨buffers, hconfiguration⟩ := hstage.configuration
    have hrest := ih hturns hlater
    rw [hconfiguration] at hrest
    -- all that is gained from here on is gained before the stage of the children
    have hchildren' : m'.children (t + 1) x = .ok children := by
      obtain ⟨gains, hgains, -, -, hstages⟩ := hstage
      obtain ⟨gains', hgains', -, -, hstages'⟩ := hrest
      rw [(hgains.trans hgains').children_eq fun g hg => ?_, hchildren]
      rcases List.mem_append.mp hg with hg | hg
      · rw [(hstages g hg).1]
        omega
      · have hbefore := hearlier _ (hstages' g hg).1
        dsimp only at hbefore
        omega
    rw [List.flatMap_cons, List.sum_cons]
    refine (hstage.imp fun g hg => ?_).trans (hrest.imp fun g hg => ?_)
    · obtain ⟨rfl, rfl, hcut⟩ := hg
      exact ⟨by simp, children, hchildren', hcut⟩
    · exact ⟨List.mem_cons_of_mem _ hg.1, hg.2⟩

omit [Scalar α] in
/-- The turns of a path go backwards from its second to last stage to the first. -/
theorem map_fst_turns (path : Trajectory α) :
    (turns path).map Prod.fst = (List.range (path.length - 1)).reverse := by
  have hindex : (path.mapIdx fun t (v : Visit α) => (t, v.solution.state)).map Prod.fst
      = List.range path.length := by
    refine List.ext_getElem (by simp) fun t _ _ => by simp
  rw [turns, List.map_reverse, List.map_dropLast, hindex]
  cases path.length with
  | zero => rfl
  | succ n => rw [List.range_succ, List.dropLast_concat, Nat.add_sub_cancel]

omit [Scalar α] in
theorem turns_backwards (path : Trajectory α) :
    (turns path).Pairwise fun e e' => e'.1 < e.1 := by
  have hstages : ((turns path).map Prod.fst).Pairwise fun t t' => t' < t := by
    rw [map_fst_turns, List.pairwise_reverse]
    exact List.pairwise_lt_range
  exact List.pairwise_map.mp hstages

omit [Scalar α] in
/-- A turn is at the state that the path has left in the stage. -/
theorem mem_turns {path : Trajectory α} {t : Nat} {x : Point α} (h : (t, x) ∈ turns path) :
    ∃ v, path[t]? = some v ∧ x = v.solution.state := by
  have hmem := List.dropLast_subset _ (List.mem_reverse.mp h)
  obtain ⟨t', ht', hturn⟩ := List.mem_mapIdx.mp hmem
  obtain ⟨rfl, rfl⟩ := Prod.mk.inj hturn
  exact ⟨_, List.getElem?_eq_getElem ht', rfl⟩

end Model

/-- A pass samples a path, and at the states that the path has left every pair that reaches
the next stage gains a cut of its children there. -/
theorem backwardPass_gains {p p' : Play α} {n : Nat} (h : backwardPass.perform p = (.ok n, p')) :
    ∃ path, p.model.trajectory.perform p.draws = (.ok path, p'.draws) ∧
      p.model.GainsEach p.model.configuration.passPlaces
        (fun g => (∃ v, path[g.stage]? = some v ∧ g.point = v.solution.state) ∧ ∃ children,
          p'.model.children (g.stage + 1) g.point = .ok children ∧
            p.model.configuration.IsCutOf g.stage g.markov g.point children g.cut) n p'.model := by
  obtain ⟨path, p₁, hsample, hadd⟩ := Transition.perform_bind_eq_ok.mp h
  obtain ⟨draws, hpath, rfl⟩ := Play.sampling_eq_ok.mp hsample
  obtain ⟨m, hcuts, rfl⟩ := Play.onModel_eq_ok.mp hadd
  obtain ⟨counts, m₁, hcounts, hcuts⟩ := Transition.perform_bind_eq_ok.mp hcuts
  cases hcuts
  refine ⟨path, hpath, ?_⟩
  have hgains := Model.addTurns_gains _ (Model.turns_backwards path) hcounts
  have hplaces : ((Model.turns path).flatMap fun e => p.model.configuration.stagePlaces e.1)
      = p.model.configuration.passPlaces := by
    have hlen : path.length = p.model.configuration.stageCount := Model.length_trajectory hpath
    unfold Configuration.passPlaces
    rw [← hlen, ← Model.map_fst_turns, List.flatMap_map]
  rw [hplaces] at hgains
  exact hgains.imp fun g hg => ⟨Model.mem_turns hg.1, hg.2⟩

end Cuts

end Multistage
