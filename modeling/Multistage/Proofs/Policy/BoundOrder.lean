/-
Multistage.Proofs.Policy.BoundOrder — the bound grows with the objectives of the first stage.

The bound adds up the objectives of the first stage, weighted twice: by the scenario
probabilities and by the initial distribution.  If neither of them has an entry below zero,
greater objectives make no smaller bound, in exact arithmetic and with doubles
(`Model.boundGrows`).  Nothing else in the model has a say in it.
-/
import Multistage.Proofs.Monotone
import Multistage.Proofs.Policy.FirstStage

namespace Multistage

variable {α : Type} [Scalar α]

/-- Scenario probabilities as they should be: a number per scenario, none of them below
zero. -/
def IsWeights (q : Tensor α) : Prop := ∃ v, q = Tensor.vector v ∧ ∀ a ∈ v, 0 ≤ a

namespace Model

/-- Solutions of the first stage, as solving it leaves them: one per Markov state and
scenario. -/
def AreFirst (m : Model α) (solutions : List (List (StageSolution α))) : Prop :=
  List.Forall₂ (fun (q : Tensor α) row => row.length = q.size) m.firstRows solutions

/-- Whether the bound that is set grows with each objective of the first stage. -/
def BoundGrows (m : Model α) : Prop :=
  ∀ low high : List (List (StageSolution α)), m.AreFirst low →
    List.Forall₂ (List.Forall₂ fun s s' => Scalar.AtMost s.objective s'.objective) low high →
    ∃ x y, (setBound.perform { m with firstStage := low }).1 = .ok x ∧
      (setBound.perform { m with firstStage := high }).1 = .ok y ∧ Scalar.AtMost x y

/-- With solutions at hand nothing is solved. -/
theorem setBound_solutions {m : Model α} {solutions : List (List (StageSolution α))}
    (hsome : solutions ≠ [])
    (hcheck : checkExpectation m.configuration.initial m.firstRows = .ok ()) :
    (setBound.perform { m with firstStage := solutions }).1 = .ok (m.boundWith solutions) := by
  have hempty : solutions.isEmpty = false := by simpa using hsome
  unfold firstRows at hcheck
  unfold setBound
  rw [Transition.perform_bind_ok (Transition.perform_get _)]
  dsimp only
  rw [hempty, if_neg Bool.false_ne_true, Transition.perform_bind_ok (Transition.perform_get _)]
  dsimp only
  rw [hcheck, Transition.perform_bind_ok (Transition.perform_outcome _ _)]
  rfl

section Growth

variable [Scalar.IsMonotone α]

theorem expectedObjective_atMost {q : List α} (hq : ∀ a ∈ q, 0 ≤ a)
    {low high : List (StageSolution α)}
    (h : List.Forall₂ (fun s s' => Scalar.AtMost s.objective s'.objective) low high) :
    Scalar.AtMost (expectedObjective q low) (expectedObjective q high) := by
  have hsame : List.Forall₂ (fun a a' => a = a' ∧ 0 ≤ a) q q :=
    List.forall₂_same.mpr fun a ha => ⟨rfl, hq a ha⟩
  refine Scalar.AtMost.total (forall₂_zipWith₂ ?_ hsame h)
  rintro a _ s s' ⟨rfl, ha⟩ hs
  exact .mul ha hs

theorem boundOf_atMost {ps : List α} (hps : ∀ p ∈ ps, 0 ≤ p) {low high : List α}
    (h : List.Forall₂ Scalar.AtMost low high) :
    Scalar.AtMost (boundOf ps low) (boundOf ps high) := by
  have hfold : ∀ a b : α, Scalar.AtMost a b →
      Scalar.AtMost
        ((ps.zip low).foldl (fun sum e => if e.1 == 0 then sum else sum + e.1 * e.2) a)
        ((ps.zip high).foldl (fun sum e => if e.1 == 0 then sum else sum + e.1 * e.2) b) := by
    induction h generalizing ps with
    | nil => simp
    | cons he _ ih =>
      intro a b hab
      cases ps with
      | nil => exact hab
      | cons p ps =>
        obtain ⟨hp, hps⟩ := List.forall_mem_cons.mp hps
        rw [List.zip_cons_cons, List.zip_cons_cons, List.foldl_cons, List.foldl_cons]
        refine ih hps _ _ ?_
        dsimp only
        split
        · exact hab
        · exact hab.add (.mul hp he)
  exact hfold 0 0 .zero

/-- With weights that are not below zero the bound grows with each objective. -/
theorem boundGrows {m : Model α} (hinitial : ∀ p ∈ m.configuration.initial, 0 ≤ p)
    (hsome : m.firstRows ≠ []) (hrows : ∀ q ∈ m.firstRows, IsWeights q) : m.BoundGrows := by
  intro low high hlow h
  have hcheck : checkExpectation m.configuration.initial m.firstRows = .ok () :=
    checkExpectation_vectors fun q hq => (hrows q hq).imp fun v hv => hv.1
  have hnonempty : low ≠ [] := by
    rintro rfl
    exact hsome (List.forall₂_nil_right_iff.mp hlow)
  have hnonempty' : high ≠ [] := by
    rintro rfl
    exact hnonempty (List.forall₂_nil_right_iff.mp h)
  refine ⟨_, _, setBound_solutions hnonempty hcheck, setBound_solutions hnonempty' hcheck, ?_⟩
  have hsame : List.Forall₂ (fun q q' => q = q' ∧ IsWeights q) m.firstRows m.firstRows :=
    List.forall₂_same.mpr fun q hq => ⟨rfl, hrows q hq⟩
  refine boundOf_atMost hinitial (forall₂_zipWith₂ ?_ hsame h)
  rintro q _ row row' ⟨rfl, v, rfl, hv⟩ hrow
  exact expectedObjective_atMost hv hrow

end Growth

end Model

end Multistage
