/-
Multistage.Proofs.Risk.Support — generated cuts support the risk.

A batch holds one line `theta + pi · (y - x)` per scenario.  The cut of a batch
is the weighted sum of these lines (`weightedCut_spec`), and the weights are
the probabilities or those of the nested measure.  So the cut of a coherent
measure takes the value of the measure at the reference state, and stays below
the measure of anything that the lines stay below.  A scratch buffer may hold
what it likes, and may be longer than the batch.
-/
import Multistage.Proofs.Risk.Reweight
import Multistage.Proofs.Tensor
import Multistage.Proofs.Transition
import Mathlib.Algebra.BigOperators.Fin

namespace Multistage

variable {K : Type} [Field K] [LinearOrder K]

/-! ## Weighted sums of lines -/

namespace Batch

/-- The values at a state of the scenarios' own cuts. -/
def lines (b : Batch K) (y : Point K) : List K :=
  List.zipWith (fun pi theta => theta + Scalar.dot pi (List.zipWith (· - ·) y b.state))
    b.duals b.objectives

/-- A batch of single numbers with duals of one length, whose probabilities
form a distribution. -/
structure IsRegular (b : Batch K) (n : Nat) : Prop where
  state : b.state.length = n
  duals : ∀ d ∈ b.duals, d.length = n
  objectives : b.objectives.length = b.duals.length
  probabilities : b.probabilities.length = b.duals.length
  objectiveShape : b.objectiveShape = []
  probabilityShape : b.probabilityShape = []
  nonneg : ∀ p ∈ b.probabilities, 0 ≤ p
  mass : b.probabilities.sum = 1

end Batch

/-- One scenario's line times its weight, in the form in which it is added to
a cut. -/
theorem Cut.scaled_line {n : Nat} {x y pi : Point K} (hx : x.length = n) (hy : y.length = n)
    (theta w : K) :
    (theta - Scalar.dot pi x) * w + Scalar.dot (pi.map (· * w)) y
      = w * (theta + Scalar.dot pi (List.zipWith (· - ·) y x)) := by
  have hmap : pi.map (· * w) = pi.map (w * ·) := List.map_congr_left fun a _ => mul_comm a w
  rw [hmap, Scalar.dot_map_mul, Scalar.dot_zipWith_sub (hy.trans hx.symm)]
  ring

theorem Cut.addScenarios_spec {n : Nat} {x y : Point K} (hx : x.length = n) (hy : y.length = n) :
    ∀ {duals : List (List K)} {objectives weights : List K} {c : Cut K},
      (∀ d ∈ duals, d.length = n) → objectives.length = duals.length →
      weights.length = duals.length → c.coefficients.length = n →
      (Cut.addScenarios x duals objectives weights c).coefficients.length = n ∧
        (Cut.addScenarios x duals objectives weights c).eval y
          = c.eval y + Scalar.dot weights
              (List.zipWith (fun pi theta => theta + Scalar.dot pi (List.zipWith (· - ·) y x))
                duals objectives)
  | [], _, _, c, _, _, _, hc => by simp [Cut.addScenarios, hc]
  | pi :: duals, [], _, c, _, ho, _, _ => by simp at ho
  | pi :: duals, _ :: _, [], c, _, _, hw, _ => by simp at hw
  | pi :: duals, theta :: objectives, w :: weights, c, hd, ho, hw, hc => by
    have hpi : pi.length = n := hd pi (by simp)
    have ho' : objectives.length = duals.length := by simpa using ho
    have hw' : weights.length = duals.length := by simpa using hw
    obtain ⟨hlen, heval⟩ := addScenarios_spec hx hy
      (c := { intercept := c.intercept + (theta - Scalar.dot pi x) * w
              coefficients := List.zipWith (· + ·) c.coefficients (pi.map (· * w)) })
      (fun d hd' => hd d (by simp [hd'])) ho' hw' (by simp [hc, hpi])
    refine ⟨hlen, ?_⟩
    rw [Cut.addScenarios, heval, List.zipWith_cons_cons, Scalar.dot_cons_cons,
      ← Cut.scaled_line hx hy, Cut.eval, Cut.eval, Scalar.dot_zipWith_add (by simp [hc, hpi])]
    ring

theorem Batch.weightedCut_spec {n : Nat} {b : Batch K} (hb : b.IsRegular n) {w : List K}
    (hw : w.length = b.duals.length) :
    (b.weightedCut w).coefficients.length = n ∧
      ∀ y : Point K, y.length = n → (b.weightedCut w).eval y = Scalar.dot w (b.lines y) := by
  have hsize := hb.probabilities
  obtain ⟨x, duals, objectives, probabilities, _, _⟩ := b
  obtain ⟨hx, hd, ho, -, -, -, -, hmass⟩ := hb
  dsimp only at hsize hx hd ho hw hmass
  match duals, objectives, w with
  | [], _, _ =>
    -- a distribution has a scenario
    rw [List.length_eq_zero_iff.mp hsize] at hmass
    exact absurd hmass (by simp)
  | pi :: duals, [], _ => simp at ho
  | pi :: duals, _ :: _, [] => simp at hw
  | pi :: duals, theta :: objectives, w :: weights =>
    have hpi : pi.length = n := hd pi (by simp)
    have ho' : objectives.length = duals.length := by simpa using ho
    have hw' : weights.length = duals.length := by simpa using hw
    have hspec := fun (y : Point K) (hy : y.length = n) =>
      Cut.addScenarios_spec hx hy
        (c := { intercept := (theta - Scalar.dot pi x) * w, coefficients := pi.map (· * w) })
        (fun d hd' => hd d (by simp [hd'])) ho' hw' (by simp [hpi])
    refine ⟨(hspec x hx).1, fun y hy => ?_⟩
    unfold Batch.weightedCut Batch.lines
    dsimp only
    rw [(hspec y hy).2, Cut.eval, Cut.scaled_line hx hy, List.zipWith_cons_cons,
      Scalar.dot_cons_cons]

theorem Batch.lines_state {n : Nat} {b : Batch K} (hb : b.IsRegular n) :
    b.lines b.state = b.objectives := by
  have hzero : List.zipWith (· - ·) b.state b.state = List.replicate b.state.length 0 := by
    rw [List.zipWith_self, ← List.map_const']
    exact List.map_congr_left fun a _ => sub_self a
  unfold Batch.lines
  rw [hzero]
  have hline : (fun (pi : List K) (theta : K) =>
      theta + Scalar.dot pi (List.replicate b.state.length 0)) = fun _ theta => theta := by
    funext pi theta
    rw [Scalar.dot_comm, Scalar.dot_replicate_zero, add_zero]
  rw [hline]
  refine List.ext_getElem (by simp [hb.objectives]) fun i h₁ h₂ => ?_
  simp

theorem Batch.lines_ofFn {S : Nat} (x y : Point K) (pi : Fin S → Point K) (theta p : Fin S → K) :
    (⟨x, List.ofFn pi, List.ofFn theta, List.ofFn p, [], []⟩ : Batch K).lines y
      = List.ofFn fun i => theta i + Scalar.dot (pi i) (List.zipWith (· - ·) y x) := by
  refine List.ext_getElem (by simp [Batch.lines]) fun i h₁ h₂ => ?_
  simp [Batch.lines]

theorem Cut.value_eq {c : Cut K} {x : Point K} (h : c.coefficients.length = x.length) :
    c.value x = .ok (c.eval x) := by
  rw [Cut.value, Cut.stateCount, if_pos h]

/-! ## Running measures -/

namespace Rule

variable {s : Sense} {b : Batch K} {n : Nat}

/-- A measure that is one sees the batch and the sense as they were read. -/
theorem generate_perform {r : Rule K} (hr : r.isForeign = false) (s : Sense) (b : Batch K)
    (pair : Option (Value × Value)) (buffers : Buffers K) :
    (r.generate (.ok s) (.ok b) pair).perform buffers = (r.cut s b pair).perform buffers := by
  simp [generate, Transition.perform_bind, hr]

theorem IsCoherent.isForeign {r : Rule K} (hr : r.IsCoherent) : r.isForeign = false := by
  cases r <;> first | rfl | exact hr.elim

end Rule

section Support

variable [IsStrictOrderedRing K]

/-! ## The cuts of coherent measures -/

/-- A cut that takes the value of the measure at the reference state of a
batch, and elsewhere stays below the measure of all values that the scenarios'
own cuts stay below. -/
structure Cut.Supports (c : Cut K) (r : Rule K) (s : Sense) (b : Batch K) : Prop where
  dimension : c.coefficients.length = b.state.length
  tight : c.eval b.state = r.risk s b.probabilities b.objectives
  below : ∀ y : Point K, y.length = b.state.length → ∀ v : List K,
    List.Forall₂ s.below (b.lines y) v → s.below (c.eval y) (r.risk s b.probabilities v)

namespace Rule

variable {s : Sense} {b : Batch K} {n : Nat}

theorem expectation_supports (hb : b.IsRegular n) :
    (b.weightedCut b.probabilities).Supports expectation s b := by
  obtain ⟨hdim, heval⟩ := b.weightedCut_spec hb hb.probabilities
  refine ⟨hdim.trans hb.state.symm, ?_, fun y hy v hv => ?_⟩
  · rw [heval _ hb.state, Batch.lines_state hb, risk_expectation, Risk.expectation_eq_dot]
  · rw [heval y (hy.trans hb.state), risk_expectation, Risk.expectation_eq_dot]
    exact Sense.below_dot hb.nonneg hv

/-- The weights of the nested measure support it, whatever follows them in the
buffer. -/
theorem nested_supports (hb : b.IsRegular n) {beta lambda : K} {slot : Nat}
    (hr : (nested beta lambda slot).IsCoherent) {filled : List K}
    (hlen : b.duals.length ≤ filled.length)
    (hfilled : visited s b.objectives filled
      = List.zipWith (fun a q => lambda * a + (1 - lambda) / beta * q)
          (visited s b.objectives b.probabilities)
          (Risk.tailShares beta (visited s b.objectives b.probabilities))) :
    (b.weightedCut (filled.take b.duals.length)).Supports (nested beta lambda slot) s b := by
  obtain ⟨hbeta, hbeta1, hlambda, hlambda1⟩ := hr
  have hmass : beta ≤ b.probabilities.sum := by rwa [hb.mass]
  have hp : b.probabilities.length = b.objectives.length :=
    hb.probabilities.trans hb.objectives.symm
  obtain ⟨hdim, heval⟩ := b.weightedCut_spec hb (w := filled.take b.duals.length) (by simpa)
  have hmix : ∀ y : Point K, y.length = n →
      (b.weightedCut (filled.take b.duals.length)).eval y
        = lambda * Risk.expectation b.probabilities (b.lines y)
          + (1 - lambda)
            * (1 / beta * Risk.tailSum s beta b.probabilities b.objectives (b.lines y)) := by
    intro y hy
    rw [heval y hy, ← hb.probabilities, dot_weights hp (by rwa [hb.probabilities]) hfilled
      (by simp [Batch.lines, hb.objectives, hb.probabilities]), Risk.expectation_eq_dot]
    ring
  refine ⟨hdim.trans hb.state.symm, ?_, fun y hy v hv => ?_⟩
  · rw [hmix _ hb.state, Batch.lines_state hb, risk_nested,
      Risk.tailValue_eq hb.nonneg hp hbeta hmass]
  · have hvlen : v.length = b.probabilities.length := by
      rw [← hv.length_eq]
      simp [Batch.lines, hb.objectives, hb.probabilities]
    have htail : s.below
        (1 / beta * Risk.tailSum s beta b.probabilities b.objectives (b.lines y))
        (Risk.tailValue s beta b.probabilities v) :=
      Sense.below_trans
        (Sense.below_mul (one_div_nonneg.mpr hbeta.le)
          (Risk.tailSum_below hb.nonneg hp hbeta.le hv))
        (Risk.tailSum_below_tailValue hb.nonneg hp hbeta hmass hvlen)
    have hmean : s.below (Risk.expectation b.probabilities (b.lines y))
        (Risk.expectation b.probabilities v) := by
      rw [Risk.expectation_eq_dot, Risk.expectation_eq_dot]
      exact Sense.below_dot hb.nonneg hv
    rw [hmix y (hy.trans hb.state), risk_nested]
    exact Sense.below_add (Sense.below_mul hlambda hmean)
      (Sense.below_mul (sub_nonneg.mpr hlambda1) htail)

/-- A coherent measure has a cut for every batch, with any pair and any
buffers, and the cut supports it. -/
theorem cut_supports {r : Rule K} (hr : r.IsCoherent) (hb : b.IsRegular n) (s : Sense)
    (pair : Option (Value × Value)) (buffers : Buffers K) :
    ∃ c buffers', (r.cut s b pair).perform buffers = (.ok c, buffers') ∧ c.Supports r s b := by
  cases r with
  | expectation =>
    refine ⟨_, buffers, ?_, expectation_supports hb⟩
    simp [cut, Batch.checkSum, hb.objectiveShape, hb.probabilityShape, Except.map]
  | nested beta lambda slot =>
    have hgrown : b.size ≤ (growBuffer b.size (buffers slot)).length := by
      rw [length_growBuffer]
      exact le_max_left _ _
    obtain ⟨filled, hrun, hlen, -, hfilled⟩ := reweight_exact s lambda hb.nonneg
      (hb.probabilities.trans hb.objectives.symm) (hb.probabilities.trans_le hgrown) hr.1.le
    have hplain : b.isPlain = true := by
      simp [Batch.isPlain, hb.objectiveShape, hb.probabilityShape]
    exact ⟨_, _, nestedCut_perform hplain hrun, nested_supports hb hr (by rwa [hlen]) hfilled⟩
  | staged select fallback => exact hr.elim
  | custom name f g => exact hr.elim
  | foreign given => exact hr.elim

end Rule

/-! ## Batches of vectors -/

/-- Vectors of the right lengths form the batch that they spell out. -/
theorem Batch.ofTensors_vectors {x : Point K} {pi : List (Point K)} (theta : List K)
    {prob : List K} (hpi : ∀ d ∈ pi, d.length = x.length) (htheta : theta.length = pi.length)
    (hlen : prob.length = pi.length) (hprob : ∀ p ∈ prob, 0 ≤ p) (hmass : prob.sum = 1) :
    Batch.ofTensors (Tensor.vector x) (Tensor.ofRows x.length pi) (Tensor.vector theta)
        (Tensor.vector prob)
      = .ok ⟨x, pi, theta, prob, [], []⟩ := by
  have hsome : ¬pi.length = 0 := by
    intro h
    rw [List.length_eq_zero_iff.mp (hlen.trans h)] at hmass
    exact absurd hmass (by simp)
  have hneg : prob.any (fun p => decide (p < 0)) = false := by
    simpa using hprob
  have hcheck : Batch.check (Tensor.vector x) (Tensor.ofRows x.length pi) (Tensor.vector theta)
      (Tensor.vector prob) = .ok () := by
    simp [Batch.check, Tensor.vector, Tensor.ofRows, Batch.leading, bind, Except.bind, hsome,
      htheta, hlen, hneg]
    rfl
  have hrows : Tensor.chunks x.length prob.length pi.flatten = pi := by
    rw [hlen, Tensor.chunks_flatten hpi]
  unfold Batch.ofTensors
  rw [hcheck]
  simp [Tensor.vector, Tensor.ofRows, hrows]

/-! ## Generated cuts -/

theorem forall₂_ofFn {α β : Type} {R : α → β → Prop} {n : Nat} {f : Fin n → α} {g : Fin n → β}
    (h : ∀ i, R (f i) (g i)) : List.Forall₂ R (List.ofFn f) (List.ofFn g) := by
  rw [List.forall₂_iff_get]
  refine ⟨by simp, fun i h₁ h₂ => ?_⟩
  simpa using h _

/-- A measure's cut of scenario results is as long as the state, takes the
measure's value at the reference state, and bounds the measure of the true
scenario values everywhere, whenever these are bounded by the scenarios' own
lines.  The value of the measure is never vacuous: the threshold that it asks
for exists. -/
theorem generate_supports_risk {m : RiskMeasure K} (hm : m.rule.IsCoherent) (s : Sense)
    {S : Nat} (x : Point K) (pi : Fin S → Point K) (theta p : Fin S → K)
    (hpi : ∀ i, (pi i).length = x.length) (hp : ∀ i, 0 ≤ p i) (hmass : ∑ i, p i = 1)
    (pair : Option (Value × Value)) :
    ∃ c m', (RiskMeasure.generate (.ok s)
        (Batch.ofTensors (Tensor.vector x) (Tensor.ofRows x.length (List.ofFn pi))
          (Tensor.vector (List.ofFn theta)) (Tensor.vector (List.ofFn p))) pair).perform m
        = (.ok c, m') ∧
      c.coefficients.length = x.length ∧
      c.value x = .ok (m.rule.risk s (List.ofFn p) (List.ofFn theta)) ∧
      (∀ v : Fin S → K, m.rule.HasRisk s (List.ofFn p) (List.ofFn v)) ∧
      ∀ V : Fin S → Point K → K,
        (∀ i y, y.length = x.length →
          s.below (theta i + Scalar.dot (pi i) (List.zipWith (· - ·) y x)) (V i y)) →
        ∀ y, y.length = x.length → ∃ a, c.value y = .ok a ∧
          s.below a (m.rule.risk s (List.ofFn p) (List.ofFn fun i => V i y)) := by
  have hp' : ∀ a ∈ List.ofFn p, 0 ≤ a := by
    simpa [List.mem_ofFn] using hp
  have hmass' : (List.ofFn p).sum = 1 := by rw [List.sum_ofFn, hmass]
  have hpi' : ∀ d ∈ List.ofFn pi, d.length = x.length := by
    simpa [List.mem_ofFn] using hpi
  have hbatch := Batch.ofTensors_vectors (List.ofFn theta) hpi' (by simp) (by simp) hp' hmass'
  have hregular : (⟨x, List.ofFn pi, List.ofFn theta, List.ofFn p, [], []⟩ : Batch K).IsRegular
      x.length :=
    { state := rfl
      duals := hpi'
      objectives := by simp
      probabilities := by simp
      objectiveShape := rfl
      probabilityShape := rfl
      nonneg := hp'
      mass := hmass' }
  obtain ⟨c, buffers', hcut, hdim, htight, hbelow⟩ :=
    Rule.cut_supports hm hregular s pair m.buffers
  refine ⟨c, ⟨m.rule, buffers'⟩, ?_, hdim, ?_, ?_, ?_⟩
  · rw [hbatch, RiskMeasure.generate, Transition.perform_of,
      Rule.generate_perform (Rule.IsCoherent.isForeign hm), hcut]
  · rw [Cut.value_eq hdim]
    exact congrArg Except.ok htight
  · exact fun v => hm.hasRisk hp' hmass' (by simp)
  · intro V hV y hy
    refine ⟨c.eval y, Cut.value_eq (hdim.trans hy.symm), ?_⟩
    refine hbelow y hy _ ?_
    rw [Batch.lines_ofFn]
    exact forall₂_ofFn fun i => hV i y hy

/-- Half of the weight on the worse half of two scenarios. -/
theorem generate_supports_worse_half :
    ∃ c m', (RiskMeasure.generate (.ok .min)
        (Batch.ofTensors (Tensor.vector [1]) (Tensor.ofRows 1 (List.ofFn ![[2], [-1]]))
          (Tensor.vector (List.ofFn ![3, 5])) (Tensor.vector (List.ofFn ![1 / 4, 3 / 4])))
        none).perform
        ⟨.nested (1 / 2) (1 / 2) 0, fun _ => []⟩ = (.ok c, m') ∧
      c.value [1] = .ok ((Rule.nested (1 / 2 : ℚ) (1 / 2) 0).risk .min [1 / 4, 3 / 4] [3, 5]) := by
  obtain ⟨c, m', hrun, -, hvalue, -⟩ := generate_supports_risk (K := ℚ)
    (m := ⟨.nested (1 / 2) (1 / 2) 0, fun _ => []⟩) (by norm_num [Rule.IsCoherent]) .min
    [1] ![[2], [-1]] ![3, 5] ![1 / 4, 3 / 4] (by decide) (by decide +kernel)
    (by norm_num [Fin.sum_univ_two]) none
  exact ⟨c, m', hrun, by simpa using hvalue⟩

end Support

end Multistage
