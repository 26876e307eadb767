/-
Multistage.Proofs.Risk.Validation — what the check of a batch lets through.

A batch is meant to hold one number per scenario.  Of the reference state and of the duals
the check asks how many dimensions they have, but objective values and probabilities only
have to be as many as there are scenarios, so matrices pass as well
(`Batch.validate_accepts`).  The measures weigh all scenarios of a batch of single numbers;
where an array stands for a number they fail, later and with another failure than the check
(`Batch.IsRefused`).
-/
import Multistage.Proofs.Risk.Scratch

namespace Multistage

variable {α : Type} [Scalar α]

/-! ## Weighing single numbers -/

/-- What measures make of a batch of single numbers.  There is an objective value, a
probability and a full row of duals for every scenario, and as many weights. -/
structure Batch.IsWeighed (b : Batch α) : Prop where
  flat : b.IsFlat
  some : 1 ≤ b.size
  duals : ∀ row ∈ b.duals, row.length = b.state.length
  expectation : ∀ s pair buffers,
    Rule.expectation.answer s b pair buffers = .ok (b.weightedCut b.probabilities)
  nested : ∀ beta lambda slot s pair, ∃ weights, weights.length = b.size ∧ ∀ buffers,
    (Rule.nested beta lambda slot).answer s b pair buffers = .ok (b.weightedCut weights)

/-- What measures make of a batch with arrays in place of numbers: no cut. -/
structure Batch.IsRefused (b : Batch α) : Prop where
  expectation : ∀ s pair buffers, ∃ e, Rule.expectation.answer s b pair buffers = .error e
  nested : ∀ beta lambda slot s pair buffers,
    ∃ e, (Rule.nested beta lambda slot).answer s b pair buffers = .error e

namespace Batch

omit [Scalar α] in
theorem checkSum_eq_ok {objectiveShape weightShape : List Nat} {states : Nat} :
    checkSum objectiveShape weightShape states = .ok ⟨⟩
      ↔ objectiveShape = [] ∧ weightShape = [] := by
  unfold checkSum
  cases objectiveShape <;> cases weightShape <;> simp <;> split <;> simp

variable {b : Batch α}

theorem isWeighed_of_isFlat (hb : b.IsFlat) (hsome : 1 ≤ b.size)
    (hduals : ∀ row ∈ b.duals, row.length = b.state.length) : b.IsWeighed where
  flat := hb
  some := hsome
  duals := hduals
  expectation s pair buffers := by
    rw [Rule.answer, Rule.generate_perform_ok]
    simp [Rule.cut, checkSum, hb.objectiveShape, hb.probabilityShape, Except.map]
  nested beta lambda slot s pair := by
    obtain ⟨w, hw⟩ := exists_weights s (hb.objectives.trans hb.probabilities.symm) lambda beta
    have hplain : b.isPlain = true := by
      simp [isPlain, hb.objectiveShape, hb.probabilityShape]
    have hgrown : ∀ buffers : Buffers α,
        b.probabilities.length ≤ (growBuffer b.size (buffers slot)).length := by
      intro buffers
      rw [length_growBuffer, hb.probabilities]
      exact Nat.le_max_left _ _
    refine ⟨w, ?_, fun buffers => ?_⟩
    · obtain ⟨filled, -, hlen, rfl⟩ := hw _ (hgrown fun _ => [])
      rw [List.length_take, hlen, Nat.min_eq_left (hgrown fun _ => []), hb.probabilities]
    · obtain ⟨filled, hrun, -, rfl⟩ := hw _ (hgrown buffers)
      rw [Rule.answer, Rule.generate_perform_ok]
      show ((Rule.nestedCut beta lambda slot s b).perform buffers).1 = _
      rw [Rule.nestedCut_perform hplain hrun, hb.probabilities]

/-! ## Arrays in place of numbers -/

omit [Scalar α] in
/-- An array does not fit where a single number is written. -/
theorem scatter_refused {t values : Tensor α} (ht : t.shape.tail = []) (hvalues : values.rank ≠ 0)
    (i : Nat) : ∃ e, t.scatter ⟨[], [i]⟩ values = .error e := by
  unfold Tensor.scatter
  simp [ht, hvalues]
  exact ⟨_, rfl⟩

/-- If probabilities are arrays, no weight can be written into a buffer of numbers. -/
theorem visit_refused {lambda beta : α} {probabilities : Tensor α} {f : ArrayFill α} (i : Nat)
    (hprob : probabilities.shape.tail ≠ []) (hbuffer : f.buffer.shape.tail = []) :
    ∃ e, f.visit lambda beta probabilities ⟨[], [i]⟩ = .error e := by
  unfold ArrayFill.visit
  cases hshare : probabilities.gather ⟨[], [i]⟩ with
  | error e => exact ⟨e, rfl⟩
  | ok share =>
    have hrank : (share.map (lambda * ·)).rank ≠ 0 := by
      obtain ⟨parts, -, h⟩ := bind_eq_ok.mp hshare
      cases h
      exact fun h => hprob (List.length_eq_zero_iff.mp h)
    obtain ⟨e, he⟩ := scatter_refused hbuffer hrank i
    rw [ok_bind, he]
    exact ⟨e, rfl⟩

omit b in
theorem worstPlaces_vector (s : Sense) (xs : List α) :
    worstPlaces s (Tensor.vector xs) = ⟨[xs.length], worstFirst s xs⟩ := by
  simp [worstPlaces, Tensor.vector, Tensor.chunks]

/-- The first visit fails. -/
theorem reweightArray_refused (grown : List α) (s : Sense) (lambda beta : α)
    (hobjectives : b.objectiveShape = []) (hlen : b.objectives.length = b.size)
    (hsome : 1 ≤ b.size) (hprob : b.probabilityShape ≠ []) :
    ∃ e, reweightArray (Tensor.vector grown) (.ok s) b.probabilityArray b.objectiveArray
      lambda beta = .error e := by
  -- the first place is that of a scenario, so its weight is the first to be written
  obtain ⟨k, hk⟩ := Nat.exists_eq_add_of_le' hsome
  obtain ⟨i, rest, hfirst⟩ : ∃ i rest, worstFirst s b.objectives = i :: rest := by
    refine List.exists_cons_of_length_pos ?_
    rw [(worstFirst_perm s b.objectives).length_eq, List.length_range]
    omega
  have harray : b.objectiveArray = Tensor.vector b.objectives := by
    rw [objectiveArray, hobjectives, Tensor.vector, hlen]
  have hplaces : (worstPlaces s b.objectiveArray).parts
      = ⟨[], [i]⟩ :: (Tensor.chunks 1 k rest).map (Tensor.mk []) := by
    rw [harray, worstPlaces_vector, hfirst, hlen, hk]
    rfl
  obtain ⟨e, he⟩ : ∃ e, (⟨Tensor.vector grown, ⟨[], [0]⟩⟩ : ArrayFill α).visit lambda beta
      b.probabilityArray ⟨[], [i]⟩ = .error e := visit_refused i hprob rfl
  refine ⟨e, ?_⟩
  show (do
    let f ← (worstPlaces s b.objectiveArray).parts.foldlM
      (ArrayFill.visit lambda beta b.probabilityArray) ⟨Tensor.vector grown, ⟨[], [0]⟩⟩
    return f.buffer) = _
  rw [hplaces, List.foldlM_cons, he]
  rfl

omit [Scalar α] in
theorem checkSum_refused {objectiveShape weightShape : List Nat}
    (h : ¬(objectiveShape = [] ∧ weightShape = [])) (states : Nat) :
    ∃ e, checkSum objectiveShape weightShape states = .error e := by
  cases hsum : checkSum objectiveShape weightShape states with
  | error e => exact ⟨e, rfl⟩
  | ok u => exact absurd (checkSum_eq_ok.mp hsum) h

theorem isRefused_of_not_isPlain (hplain : b.isPlain = false) (hsome : 1 ≤ b.size)
    (hlen : b.objectiveShape = [] → b.objectives.length = b.size) : b.IsRefused where
  expectation s pair buffers := by
    have harrays : ¬(b.objectiveShape = [] ∧ b.probabilityShape = []) := by
      rintro ⟨hobjectives, hprobabilities⟩
      simp [isPlain, hobjectives, hprobabilities] at hplain
    obtain ⟨e, he⟩ := checkSum_refused harrays b.state.length
    refine ⟨e, ?_⟩
    rw [Rule.answer, Rule.generate_perform_ok]
    simp [Rule.cut, he, Except.map]
  nested beta lambda slot s pair buffers := by
    rw [Rule.answer, Rule.generate_perform_ok]
    show ∃ e, ((Rule.nestedCut beta lambda slot s b).perform buffers).1 = .error e
    obtain ⟨grown, hgrown⟩ : ∃ grown, grown = growBuffer b.size (buffers slot) := ⟨_, rfl⟩
    by_cases hobjectives : b.objectiveShape = []
    · have hprob : b.probabilityShape ≠ [] := by
        intro hprob
        simp [isPlain, hobjectives, hprob] at hplain
      obtain ⟨e, he⟩ := reweightArray_refused grown s lambda beta hobjectives
        (hlen hobjectives) hsome hprob
      refine ⟨e, ?_⟩
      simp [Rule.nestedCut, Transition.perform_bind, Transition.perform_discard, hplain,
        ← hgrown, he, Except.map]
    · have harray : ¬(b.objectiveShape = [] ∧ ([] : List Nat) = []) := fun h => hobjectives h.1
      obtain ⟨e, he⟩ := checkSum_refused harray b.state.length
      cases hweights : reweightArray (Tensor.vector grown) (.ok s) b.probabilityArray
          b.objectiveArray lambda beta with
      | error e' =>
        refine ⟨e', ?_⟩
        simp [Rule.nestedCut, Transition.perform_bind, Transition.perform_discard, hplain,
          ← hgrown, hweights, Except.map]
      | ok weights =>
        refine ⟨e, ?_⟩
        simp [Rule.nestedCut, Transition.perform_bind, Transition.perform_discard, hplain,
          ← hgrown, hweights, he, Except.map]

end Batch

/-! ## Batches from arrays -/

namespace Batch

section Formed

/-- The batch that four arrays form, if they pass as one. -/
def formed (x pi theta prob : Tensor α) : Batch α where
  state := x.entries
  duals := Tensor.chunks x.entries.length (prob.shape.headD 0) pi.entries
  objectives := theta.entries
  probabilities := prob.entries
  objectiveShape := theta.shape.tail
  probabilityShape := prob.shape.tail

variable {n scenarios : Nat} {x pi theta prob : Tensor α}

theorem HasShapes.size_formed (h : HasShapes n scenarios x pi theta prob) :
    (formed x pi theta prob).size = scenarios := by
  obtain ⟨rest, hprob⟩ := h.probabilities
  simp [size, formed, hprob]

/-- Every scenario has one dual per state. -/
theorem HasShapes.duals_formed (h : HasShapes n scenarios x pi theta prob)
    (hx : x.IsRectangular) (hpi : pi.IsRectangular) :
    ∀ row ∈ (formed x pi theta prob).duals, row.length = (formed x pi theta prob).state.length := by
  obtain ⟨rest, hprob⟩ := h.probabilities
  have hstate : x.entries.length = n := by simpa [Tensor.IsRectangular, h.state] using hx
  have hentries : pi.entries.length = scenarios * n := by
    rcases h.duals with hshape | ⟨rfl, hshape⟩ <;>
      simpa [Tensor.IsRectangular, hshape] using hpi
  intro row hrow
  simp only [formed, hprob, hstate, List.headD_cons] at hrow ⊢
  exact Tensor.length_of_mem_chunks hentries hrow

/-- The batch is one of single numbers exactly if objective values and probabilities are
vectors. -/
theorem HasShapes.isPlain_formed (h : HasShapes n scenarios x pi theta prob) :
    (formed x pi theta prob).isPlain = true ↔ theta.rank = 1 ∧ prob.rank = 1 := by
  obtain ⟨rest, htheta⟩ := h.objectives
  obtain ⟨rest', hprob⟩ := h.probabilities
  simp [isPlain, formed, Tensor.rank, htheta, hprob]

omit [Scalar α] in
/-- Without further dimensions there is one entry per scenario. -/
theorem length_entries {t : Tensor α} (hrect : t.IsRectangular)
    (hshape : ∃ rest, t.shape = scenarios :: rest) (htail : t.shape.tail = []) :
    t.entries.length = scenarios := by
  obtain ⟨rest, hrest⟩ := hshape
  rw [hrest, List.tail_cons] at htail
  simpa [Tensor.IsRectangular, hrest, htail] using hrect

theorem HasShapes.isFlat_formed (h : HasShapes n scenarios x pi theta prob)
    (htheta : theta.IsRectangular) (hprob : prob.IsRectangular)
    (hplain : (formed x pi theta prob).isPlain = true) : (formed x pi theta prob).IsFlat := by
  obtain ⟨hobjectives, hprobabilities⟩ : theta.shape.tail = [] ∧ prob.shape.tail = [] := by
    simpa [isPlain, formed] using hplain
  refine ⟨?_, ?_, hobjectives, hprobabilities⟩
  · rw [h.size_formed]
    exact length_entries htheta h.objectives hobjectives
  · rw [h.size_formed]
    exact length_entries hprob h.probabilities hprobabilities

end Formed

/-! ## Batches from values -/

variable {x pi theta prob : Value} {tx tpi ttheta tprob : Tensor Float}

/-- Values that are a batch: of some scenarios, at least one, over a number of states, with
one objective value and one probability per scenario, none of them negative. -/
def AreWellFormed (x pi theta prob : Value) : Prop :=
  ∃ tx tpi ttheta tprob, readAll x pi theta prob = .ok (.ok (tx, tpi, ttheta, tprob)) ∧
    ∃ n scenarios, HasShapes n scenarios tx tpi ttheta tprob ∧
      ttheta.shape = [scenarios] ∧ tprob.shape = [scenarios]

theorem readAll_eq_ok :
    readAll x pi theta prob = .ok (.ok (tx, tpi, ttheta, tprob))
      ↔ Tensor.ofValue x = .ok tx ∧ Tensor.ofValue pi = .ok tpi ∧
        Tensor.ofValue theta = .ok ttheta ∧ Tensor.ofValue prob = .ok tprob := by
  unfold readAll
  constructor
  · intro h
    dsimp only at h
    split at h
    · next ts hall =>
      cases h
      obtain ⟨_, hx, hall⟩ := bind_eq_ok.mp hall
      obtain ⟨_, hpi, hall⟩ := bind_eq_ok.mp hall
      obtain ⟨_, htheta, hall⟩ := bind_eq_ok.mp hall
      obtain ⟨_, hprob, hall⟩ := bind_eq_ok.mp hall
      cases hall
      exact ⟨hx, hpi, htheta, hprob⟩
    · cases h
    · cases h
    · cases h
  · rintro ⟨hx, hpi, htheta, hprob⟩
    rw [hx, hpi, htheta, hprob]
    rfl

theorem fault?_eq_none :
    fault? tx tpi ttheta tprob = none ↔ check tx tpi ttheta tprob = .ok ⟨⟩ := by
  unfold fault?
  cases check tx tpi ttheta tprob <;> simp

/-- What the check of values lets through. -/
theorem validate_eq_none :
    validate x pi theta prob = .ok none ↔ ∃ tx tpi ttheta tprob,
      readAll x pi theta prob = .ok (.ok (tx, tpi, ttheta, tprob)) ∧
        ∃ n scenarios, HasShapes n scenarios tx tpi ttheta tprob := by
  unfold validate
  rw [bind_eq_ok]
  constructor
  · rintro ⟨read, hread, h⟩
    obtain f | ⟨tx, tpi, ttheta, tprob⟩ := read
    · cases h
    · exact ⟨tx, tpi, ttheta, tprob, hread, check_eq_ok.mp (fault?_eq_none.mp (Except.ok.inj h))⟩
  · rintro ⟨tx, tpi, ttheta, tprob, hread, hshapes⟩
    exact ⟨_, hread, congrArg Except.ok (fault?_eq_none.mpr (check_eq_ok.mpr hshapes))⟩

/-- The batch that values form. -/
theorem ofValues_eq_ok {b : Batch Float} :
    ofValues x pi theta prob = .ok b ↔ ∃ tx tpi ttheta tprob,
      readAll x pi theta prob = .ok (.ok (tx, tpi, ttheta, tprob)) ∧
        (∃ n scenarios, HasShapes n scenarios tx tpi ttheta tprob) ∧
          b = formed tx tpi ttheta tprob := by
  unfold ofValues
  rw [bind_eq_ok]
  constructor
  · rintro ⟨read, hread, h⟩
    obtain f | ⟨tx, tpi, ttheta, tprob⟩ := read
    · cases h
    · refine ⟨tx, tpi, ttheta, tprob, hread, ?_⟩
      dsimp only [ofTensors] at h
      split at h
      · cases h
      · next hcheck =>
        cases h
        exact ⟨check_eq_ok.mp hcheck, rfl⟩
  · rintro ⟨tx, tpi, ttheta, tprob, hread, hshapes, rfl⟩
    refine ⟨_, hread, ?_⟩
    dsimp only [ofTensors]
    rw [check_eq_ok.mpr hshapes]
    rfl

/-- Of what the check lets through, the vectors are well formed. -/
theorem areWellFormed_iff (hread : readAll x pi theta prob = .ok (.ok (tx, tpi, ttheta, tprob)))
    {n scenarios : Nat} (hshapes : HasShapes n scenarios tx tpi ttheta tprob) :
    AreWellFormed x pi theta prob ↔ ttheta.rank = 1 ∧ tprob.rank = 1 := by
  constructor
  · rintro ⟨_, _, _, _, hread', _, _, -, htheta, hprob⟩
    cases hread.symm.trans hread'
    exact ⟨congrArg List.length htheta, congrArg List.length hprob⟩
  · rintro ⟨htheta, hprob⟩
    have hvector : ∀ {t : Tensor Float}, t.rank = 1 → (∃ rest, t.shape = scenarios :: rest) →
        t.shape = [scenarios] := by
      rintro t hrank ⟨rest, hrest⟩
      rw [Tensor.rank, hrest] at hrank
      rw [hrest, List.length_eq_zero_iff.mp (Nat.succ.inj hrank)]
    exact ⟨tx, tpi, ttheta, tprob, hread, n, scenarios, hshapes, hvector htheta hshapes.objectives,
      hvector hprob hshapes.probabilities⟩

/-- What the check lets through, and what becomes of it.  Objective values and probabilities
may be arrays, of which only the first dimension is looked at; the batch is one of single
numbers exactly if both are vectors.  All scenarios of such a batch are weighed; of any other
batch the measures make no cut. -/
theorem validate_accepts (x pi theta prob : Value) :
    (validate x pi theta prob = .ok none ↔ ∃ tx tpi ttheta tprob,
      readAll x pi theta prob = .ok (.ok (tx, tpi, ttheta, tprob)) ∧
        ∃ n scenarios, HasShapes n scenarios tx tpi ttheta tprob) ∧
    (AreWellFormed x pi theta prob ↔ validate x pi theta prob = .ok none ∧
      ∃ tx tpi ttheta tprob, readAll x pi theta prob = .ok (.ok (tx, tpi, ttheta, tprob)) ∧
        ttheta.rank = 1 ∧ tprob.rank = 1) ∧
    ((∃ b, ofValues x pi theta prob = .ok b) ↔ validate x pi theta prob = .ok none) ∧
    ∀ b, ofValues x pi theta prob = .ok b →
      (AreWellFormed x pi theta prob → b.IsWeighed) ∧
        (¬AreWellFormed x pi theta prob → b.IsRefused) := by
  refine ⟨validate_eq_none, ⟨?_, ?_⟩, ⟨?_, ?_⟩, fun b hb => ?_⟩
  · rintro ⟨tx, tpi, ttheta, tprob, hread, n, scenarios, hshapes, htheta, hprob⟩
    exact ⟨validate_eq_none.mpr ⟨tx, tpi, ttheta, tprob, hread, n, scenarios, hshapes⟩,
      tx, tpi, ttheta, tprob, hread, congrArg List.length htheta, congrArg List.length hprob⟩
  · rintro ⟨hvalid, tx, tpi, ttheta, tprob, hread, hvectors⟩
    obtain ⟨_, _, _, _, hread', n, scenarios, hshapes⟩ := validate_eq_none.mp hvalid
    cases hread.symm.trans hread'
    exact (areWellFormed_iff hread hshapes).mpr hvectors
  · rintro ⟨b, hb⟩
    obtain ⟨tx, tpi, ttheta, tprob, hread, hshapes, -⟩ := ofValues_eq_ok.mp hb
    exact validate_eq_none.mpr ⟨tx, tpi, ttheta, tprob, hread, hshapes⟩
  · intro hvalid
    obtain ⟨tx, tpi, ttheta, tprob, hread, hshapes⟩ := validate_eq_none.mp hvalid
    exact ⟨_, ofValues_eq_ok.mpr ⟨tx, tpi, ttheta, tprob, hread, hshapes, rfl⟩⟩
  · obtain ⟨tx, tpi, ttheta, tprob, hread, ⟨n, scenarios, hshapes⟩, rfl⟩ := ofValues_eq_ok.mp hb
    obtain ⟨hx, hpi, htheta, hprob⟩ := readAll_eq_ok.mp hread
    have hsome : 1 ≤ (formed tx tpi ttheta tprob).size := hshapes.size_formed ▸ hshapes.positive
    have hplain : AreWellFormed x pi theta prob ↔ (formed tx tpi ttheta tprob).isPlain = true := by
      rw [areWellFormed_iff hread hshapes, hshapes.isPlain_formed]
    refine ⟨fun hvectors => ?_, fun harrays => ?_⟩
    · exact isWeighed_of_isFlat
        (hshapes.isFlat_formed (Tensor.ofValue_isRectangular htheta)
          (Tensor.ofValue_isRectangular hprob) (hplain.mp hvectors)) hsome
        (hshapes.duals_formed (Tensor.ofValue_isRectangular hx)
          (Tensor.ofValue_isRectangular hpi))
    · refine isRefused_of_not_isPlain ?_ hsome fun hobjectives => ?_
      · rw [← Bool.not_eq_true, ← hplain]
        exact harrays
      · rw [hshapes.size_formed]
        exact length_entries (Tensor.ofValue_isRectangular htheta) hshapes.objectives hobjectives

/-- One scenario over one state passes with one objective value, and with a row of two in its
place. -/
theorem validate_accepts_row :
    let one : Value := .list [.int 1]
    let row : Value := .list [.list [.int 1, .int 2]]
    validate one one one one = .ok none ∧ AreWellFormed one one one one ∧
      (∃ b, ofValues one one one one = .ok b ∧ b.IsWeighed) ∧
      validate one one row one = .ok none ∧ ¬AreWellFormed one one row one ∧
      (∃ b, ofValues one one row one = .ok b ∧ b.IsRefused) ∧
      ¬∀ x pi theta prob, validate x pi theta prob = .ok none ↔ AreWellFormed x pi theta prob := by
  intro one row
  obtain ⟨-, hformed, hbatch, hweighed⟩ := validate_accepts one one one one
  obtain ⟨-, hformed', hbatch', hrefused⟩ := validate_accepts one one row one
  have hvalid : validate one one one one = .ok none := rfl
  have hvalid' : validate one one row one = .ok none := rfl
  have hwell : AreWellFormed one one one one := hformed.mpr ⟨hvalid, _, _, _, _, rfl, rfl, rfl⟩
  have hill : ¬AreWellFormed one one row one := by
    intro h
    obtain ⟨-, _, _, _, _, hread, hrank, -⟩ := hformed'.mp h
    cases hread
    cases hrank
  obtain ⟨b, hb⟩ := hbatch.mpr hvalid
  obtain ⟨b', hb'⟩ := hbatch'.mpr hvalid'
  exact ⟨hvalid, hwell, ⟨b, hb, (hweighed b hb).1 hwell⟩, hvalid', hill,
    ⟨b', hb', (hrefused b' hb').2 hill⟩, fun h => hill ((h _ _ _ _).mp hvalid')⟩

end Batch

end Multistage
