/-
Multistage.Proofs.Mirror.Cut — cuts of profits mirror cuts of costs.

With duals and objective values of the other sign, maximization builds the cut of
minimization with the other sign (`Rule.generate_mirrors`).  The scenarios are visited in
the same order, since the worst profit is the worst cost, so they get the same weights,
and the buffers are left alike.  And at a sample point the lowest of mirrored cuts is the
mirror image of the highest one, also among equals, so the votes are the same
(`Store.countVotes_mirrored`).
-/
import Multistage.Cut.Dominance
import Multistage.Proofs.Mirror.Arithmetic
import Multistage.Proofs.Except
import Multistage.Proofs.Tensor
import Multistage.Proofs.Transition
import Multistage.Risk.Measure

namespace Multistage

open Scalar

variable {α : Type} [Scalar α]

/-! ## Mirrored data -/

/-- The cut with the other sign. -/
def Cut.mirrored (c : Cut α) : Cut α := ⟨-c.intercept, c.coefficients.map (- ·)⟩

/-- Whether a cut is another one with the other sign, up to the sign of zeros. -/
structure Cut.Mirrors (c d : Cut α) : Prop where
  intercept : Mirror c.intercept d.intercept
  coefficients : List.Forall₂ Mirror c.coefficients d.coefficients

/-- The batch with duals and objective values of the other sign. -/
def Batch.mirrored (b : Batch α) : Batch α :=
  { b with duals := b.duals.map (List.map (- ·)), objectives := b.objectives.map (- ·) }

/-- The store with all cuts of the other sign. -/
def Store.mirrored (s : Store α) : Store α := { s with cuts := s.cuts.map Cut.mirrored }

theorem forall₂_mirror_neg (as : List α) : List.Forall₂ Mirror (as.map (- ·)) as :=
  List.forall₂_map_left_iff.mpr (List.forall₂_same.mpr fun a _ => .neg a)

/-! ## Weights -/

/-- The worst profits are the worst costs of the other sign. -/
theorem worstFirst_mirrored (objectives : List α) :
    worstFirst .max (objectives.map (- ·)) = worstFirst .min objectives := rfl

theorem reweight_mirrored (buffer : List α) (b : Batch α) (lambda beta : α) :
    reweight buffer (.ok .max) b.mirrored.probabilities b.mirrored.objectives lambda beta
      = reweight buffer (.ok .min) b.probabilities b.objectives lambda beta := rfl

theorem worstPlaces_mirrored (t : Tensor α) :
    worstPlaces .max (t.map (- ·)) = worstPlaces .min t := by
  simp only [worstPlaces, Tensor.map, Tensor.chunks_map, List.flatMap_map, worstFirst_mirrored]
  rfl

theorem reweightArray_mirrored (buffer probabilities objectives : Tensor α) (lambda beta : α) :
    reweightArray buffer (.ok .max) probabilities (objectives.map (- ·)) lambda beta
      = reweightArray buffer (.ok .min) probabilities objectives lambda beta := by
  simp only [reweightArray, ok_bind, worstPlaces_mirrored]

/-! ## Weighted sums -/

variable [IsSymmetric α]

/-- The contribution of a scenario whose dual and objective value have the other sign. -/
theorem scenario_mirrors (x pi : List α) (theta w : α) :
    Mirror ((-theta - dot (pi.map (- ·)) x) * w) ((theta - dot pi x) * w) ∧
      List.Forall₂ Mirror ((pi.map (- ·)).map (· * w)) (pi.map (· * w)) := by
  constructor
  · exact ((Mirror.neg theta).sub (.dot (forall₂_mirror_neg pi) x)).mul_agree (.refl w)
  · rw [List.forall₂_map_left_iff, List.forall₂_map_left_iff, List.forall₂_map_right_iff]
    exact List.forall₂_same.mpr fun a _ => (Mirror.neg a).mul_agree (.refl w)

theorem Cut.addScenarios_mirrors (x : Point α) (duals : List (List α)) (objectives weights : List α)
    {c d : Cut α} (h : c.Mirrors d) :
    (Cut.addScenarios x (duals.map (List.map (- ·))) (objectives.map (- ·)) weights c).Mirrors
      (Cut.addScenarios x duals objectives weights d) := by
  induction duals generalizing objectives weights c d with
  | nil => exact h
  | cons pi duals ih =>
    cases objectives with
    | nil => exact h
    | cons theta objectives =>
      cases weights with
      | nil => exact h
      | cons w weights =>
        obtain ⟨hintercept, hcoefficients⟩ := scenario_mirrors x pi theta w
        exact ih objectives weights ⟨h.intercept.add hintercept,
          forall₂_zipWith₂ (fun _ _ _ _ h h' => h.add h') h.coefficients hcoefficients⟩

/-- The weighted sum of mirrored scenarios mirrors that of the scenarios. -/
theorem Batch.weightedCut_mirrors (b : Batch α) (weights : List α) :
    (b.mirrored.weightedCut weights).Mirrors (b.weightedCut weights) := by
  obtain ⟨x, duals, objectives, probabilities, objectiveShape, probabilityShape⟩ := b
  have hnone : (⟨0, []⟩ : Cut α).Mirrors ⟨0, []⟩ := ⟨.zero, .nil⟩
  cases duals with
  | nil => exact hnone
  | cons pi duals =>
    cases objectives with
    | nil => exact hnone
    | cons theta objectives =>
      cases weights with
      | nil => exact hnone
      | cons w weights =>
        obtain ⟨hintercept, hcoefficients⟩ := scenario_mirrors x pi theta w
        exact Cut.addScenarios_mirrors x duals objectives weights ⟨hintercept, hcoefficients⟩

/-! ## Measures -/

/-- The measures of the library: the expectation, the nested measure, and a choice of them
by stage. -/
inductive Rule.IsStandard : Rule α → Prop where
  | expectation : Rule.IsStandard .expectation
  | nested (beta lambda : α) (slot : Nat) : Rule.IsStandard (.nested beta lambda slot)
  | staged {select : Value → Value → Rule α} {fallback : Rule α}
      (hselect : ∀ t i, Rule.IsStandard (select t i)) (hfallback : Rule.IsStandard fallback) :
      Rule.IsStandard (.staged select fallback)

namespace Rule

theorem nestedCut_mirrors (beta lambda : α) (slot : Nat) (b : Batch α) :
    Transition.Related Eq Cut.Mirrors Eq (nestedCut beta lambda slot .max b.mirrored)
      (nestedCut beta lambda slot .min b) := by
  have hsize : b.mirrored.size = b.size := List.length_map _
  have hobjectives : b.mirrored.objectiveArray = b.objectiveArray.map (- ·) := by
    show Tensor.mk (b.mirrored.size :: _) _ = _
    rw [hsize]
    rfl
  have hprobabilities : b.mirrored.probabilityArray = b.probabilityArray := by
    show Tensor.mk (b.mirrored.size :: _) _ = _
    rw [hsize]
    rfl
  unfold nestedCut
  simp only [hsize, hobjectives, hprobabilities, reweightArray_mirrored, reweight_mirrored]
  refine (Transition.Related.self _).bind fun s _ hs => ?_
  subst hs
  refine (Transition.Related.self _).bind fun _ _ _ => ?_
  show Transition.Related Eq Cut.Mirrors Eq (if (!b.isPlain) = true then _ else _) _
  split_ifs
  on_goal 1 =>
    refine (Transition.Related.self _).bind fun _ _ _ => ?_
    refine (Transition.Related.self _).bind fun _ _ _ => ?_
  -- the weights are the same, whether or not they were first written into arrays
  all_goals
    generalize reweight (growBuffer b.size (s slot)) (.ok .min) b.probabilities b.objectives
      lambda beta = r
    cases r with
    | error e => exact .throw rfl
    | ok filled =>
      exact (Transition.Related.self _).bind fun _ _ _ => .pure (b.weightedCut_mirrors _)

/-- A measure builds of a mirrored batch the mirrored cut, and leaves the same buffers. -/
theorem IsStandard.cut_mirrors {r : Rule α} (h : r.IsStandard) (b : Batch α)
    (pair : Option (Value × Value)) :
    Transition.Related Eq Cut.Mirrors Eq (r.cut .max b.mirrored pair) (r.cut .min b pair) := by
  induction h generalizing pair with
  | expectation =>
    refine (Transition.Related.self _).bind fun _ _ _ => ?_
    exact .pure (b.weightedCut_mirrors _)
  | nested beta lambda slot => exact nestedCut_mirrors beta lambda slot b
  | staged _ _ ihselect ihfallback =>
    cases pair with
    | none => exact ihfallback none
    | some pair => exact (Transition.Related.self _).bind fun _ _ _ => ihselect _ _ none

omit [Scalar α] [IsSymmetric α] in
theorem IsStandard.isForeign {r : Rule α} (h : r.IsStandard) : r.isForeign = false := by
  cases h <;> rfl

omit [IsSymmetric α] in
/-- Arrays whose duals and objective values have the other sign form the mirrored batch. -/
theorem ofTensors_mirrored (x pi theta prob : Tensor α) :
    Batch.ofTensors x (pi.map (- ·)) (theta.map (- ·)) prob
      = (Batch.ofTensors x pi theta prob).map Batch.mirrored := by
  have hcheck : Batch.check x (pi.map (- ·)) (theta.map (- ·)) prob
      = Batch.check x pi theta prob := rfl
  unfold Batch.ofTensors
  rw [hcheck]
  cases Batch.check x pi theta prob with
  | error f => rfl
  | ok _ => simp [Except.map, Batch.mirrored, Tensor.map, Tensor.chunks_map]

/-- With duals and objective values of the other sign, maximization builds the cut of
minimization with the other sign, or fails in the same way. -/
theorem IsStandard.generate_mirrors {r : Rule α} (h : r.IsStandard) (x pi theta prob : Tensor α)
    (pair : Option (Value × Value)) :
    Transition.Related Eq Cut.Mirrors Eq
      (r.generate (.ok .max) (Batch.ofTensors x (pi.map (- ·)) (theta.map (- ·)) prob) pair)
      (r.generate (.ok .min) (Batch.ofTensors x pi theta prob) pair) := by
  unfold generate
  rw [h.isForeign, if_neg Bool.false_ne_true, if_neg Bool.false_ne_true, ofTensors_mirrored]
  have hbatch : Transition.Alike (fun b b' => b = b'.mirrored) Eq
      ((Batch.ofTensors x pi theta prob).map Batch.mirrored) (Batch.ofTensors x pi theta prob) := by
    cases Batch.ofTensors x pi theta prob with
    | error e => exact .error rfl
    | ok b => exact .ok rfl
  refine (Transition.Related.outcome hbatch).bind ?_
  rintro _ b rfl
  refine (Transition.Related.outcome
    (.ok (P := fun s s' => s = .max ∧ s' = .min) ⟨rfl, rfl⟩)).bind ?_
  rintro _ _ ⟨rfl, rfl⟩
  exact h.cut_mirrors b pair

end Rule

/-! ## Votes -/

theorem Cut.mirrored_eval (c : Cut α) (x : Point α) : Mirror (c.mirrored.eval x) (c.eval x) :=
  (Mirror.neg c.intercept).add (.dot (forall₂_mirror_neg c.coefficients) x)

theorem takesLead_mirror {v v' a a' : α} (hv : Mirror v v') (ha : Mirror a a') :
    takesLead .max v a = takesLead .min v' a' := by
  unfold takesLead
  rw [ha.isNaN_eq, hv.isNaN_eq]
  simp only [hv.lt_iff ha]

theorem leaderFrom_mirror {vs vs' : List α} (h : List.Forall₂ Mirror vs vs') (i best : Nat)
    {a a' : α} (ha : Mirror a a') :
    leaderFrom .max vs i best a = leaderFrom .min vs' i best a' := by
  induction h generalizing i best a a' with
  | nil => rfl
  | cons hv _ ih =>
    unfold leaderFrom
    rw [takesLead_mirror hv ha]
    split
    · exact ih _ _ hv
    · exact ih _ _ ha

theorem leader?_mirror {vs vs' : List α} (h : List.Forall₂ Mirror vs vs') :
    leader? .max vs = leader? .min vs' := by
  cases h with
  | nil => rfl
  | cons ha h => exact congrArg some (leaderFrom_mirror h 1 0 ha)

namespace Store

theorem bestAt_mirrored (s : Store α) (p : Point α) :
    s.mirrored.bestAt .max p = s.bestAt .min p := by
  have hvalues : List.Forall₂ Mirror (s.mirrored.cuts.map fun c => c.eval p)
      (s.cuts.map fun c => c.eval p) := by
    rw [mirrored, List.map_map, List.forall₂_map_left_iff, List.forall₂_map_right_iff]
    exact List.forall₂_same.mpr fun c _ => c.mirrored_eval p
  exact leader?_mirror hvalues

/-- The votes of maximization among mirrored cuts are those of minimization among the
cuts. -/
theorem countVotes_mirrored (s : Store α) : s.mirrored.countVotes .max = s.countVotes .min := by
  have hbest : s.mirrored.bestAt .max = s.bestAt .min := funext s.bestAt_mirrored
  have hlength : s.mirrored.cuts.length = s.cuts.length := List.length_map _
  unfold countVotes
  rw [hbest, hlength]
  rfl

end Store

end Multistage
