/-
Multistage.Proofs.Mirror.Program — linear programs of profits mirror those of costs.

A stage is always written as a program that minimizes.  For profits the costs, the cuts
and the bound on the value to come enter with the other sign, so the program is that of
the mirrored stage.  Only `theta` keeps the sign of a profit: its column and its range are
the mirrored ones (`LinearStage.assemble_mirrors`).  With cuts, votes and figures this
makes maximization the mirror image of minimization (`maximization_mirrors`).
-/
import Multistage.Proofs.Mirror.Cut
import Multistage.Proofs.Mirror.Figures
import Multistage.Stage.Linear

namespace Multistage

open Scalar

variable {α : Type} [Scalar α]

/-! ## Mirrored programs -/

/-- Whether lists differ at most in their last items, which are related. -/
def OnlyLast {β : Type} (R : β → β → Prop) (as bs : List β) : Prop :=
  ∃ init a b, as = init ++ [a] ∧ bs = init ++ [b] ∧ R a b

/-- Whether a limit lies on the other side at the other sign. -/
inductive Limit.Mirrors : Limit α → Limit α → Prop where
  | finite {a b : α} (h : Mirror a b) : Mirrors (.finite a) (.finite b)
  | negInf : Mirrors .negInf .posInf
  | posInf : Mirrors .posInf .negInf

/-- Whether a range is another one with the other sign, its ends swapped. -/
structure LP.Range.Mirrors (r r' : LP.Range α) : Prop where
  lower : r.lower.Mirrors r'.upper
  upper : r.upper.Mirrors r'.lower

namespace LinearStage

/-- Whether two programs are one but for the sign of `theta`: its cost, its coefficient in
every row and its range are those of the other program with the other sign. -/
structure Assembly.MirrorsTheta (a b : Assembly α) : Prop where
  costs : OnlyLast Mirror a.costs b.costs
  rows : List.Forall₂ (OnlyLast Mirror) a.rows b.rows
  rhs : a.rhs = b.rhs
  signs : a.signs = b.signs
  columns : OnlyLast LP.Range.Mirrors a.columns b.columns

/-- The stage with costs of the other sign. -/
def mirrored (p : LinearStage α) : LinearStage α :=
  { p with costs := p.costs.map (List.map (- ·)) }

end LinearStage

/-- The setting under a sense. -/
def Setting.under (s : Setting α) (sense : Sense) : Setting α := { s with sense }

/-- The setting with the bound of the other sign. -/
def Setting.mirrored (s : Setting α) : Setting α := { s with bound := s.bound.map Limit.mirrored }

/-- The situation under a sense. -/
def Situation.under (s : Situation α) (sense : Sense) : Situation α :=
  { s with setting := s.setting.under sense }

/-- The situation with the bound and the cuts of the other sign. -/
def Situation.mirrored (s : Situation α) : Situation α :=
  { s with setting := s.setting.mirrored, cuts := s.cuts.map Cut.mirrored }

/-! ## Parts of the program -/

theorem onlyLast_append {init : List α} {a b : α} (h : Mirror a b) :
    OnlyLast Mirror (init ++ [a]) (init ++ [b]) :=
  ⟨init, a, b, rfl, rfl, h⟩

variable [IsSymmetric α]

theorem Limit.mirrors_mirrored (l : Limit α) : l.Mirrors l.mirrored := by
  cases l with
  | finite a => exact .finite (Mirror.neg a).symm
  | negInf => exact .negInf
  | posInf => exact .posInf

namespace LinearStage

theorem thetaRange_mirrors (s : Setting α) :
    (thetaRange (s.under .max)).Mirrors (thetaRange (s.mirrored.under .min)) := by
  obtain ⟨sense, final, bound, stage, markovState⟩ := s
  cases final with
  | true => exact ⟨.finite .zero, .finite .zero⟩
  | false =>
    cases bound with
    | none => exact ⟨.negInf, Limit.mirrors_mirrored (.finite (Scalar.ofNat 1000000))⟩
    | some b => exact ⟨.negInf, b.mirrors_mirrored⟩

omit [IsSymmetric α] in
/-- The row of a cut on profits is that of the mirrored cut on costs. -/
theorem cutRow_mirrors (p : LinearStage α) (c : Cut α) :
    OnlyLast Mirror (p.cutRow .max c) (p.mirrored.cutRow .min c.mirrored) := by
  have hcoefficients : c.mirrored.coefficients.map (towardsMin .min)
      = c.coefficients.map (towardsMin .max) := by
    simp [Cut.mirrored, towardsMin]
  unfold cutRow
  rw [hcoefficients]
  exact onlyLast_append (.neg _)

theorem stageRows_mirrors (p : LinearStage α) :
    List.Forall₂ (OnlyLast Mirror) p.stageRows p.mirrored.stageRows := by
  refine forall₂_zipWith₂ (R := Eq) (S := Eq) ?_ (List.forall₂_refl _) (List.forall₂_refl _)
  rintro inflow _ row _ rfl rfl
  exact onlyLast_append .zero

theorem copyRows_mirrors (p : LinearStage α) :
    List.Forall₂ (OnlyLast Mirror) p.copyRows p.mirrored.copyRows := by
  unfold copyRows
  rw [List.forall₂_map_left_iff, List.forall₂_map_right_iff]
  exact List.forall₂_same.mpr fun _ _ => onlyLast_append .zero

theorem assembly_mirrors (p : LinearStage α) (s : Situation α) (x : Point α)
    (costs rhs : List α) :
    (p.assembly (s.under .max).setting s.cuts x costs rhs).MirrorsTheta
      (p.mirrored.assembly (s.mirrored.under .min).setting s.mirrored.cuts x
        (costs.map (- ·)) rhs) := by
  have hcuts : activeCuts (s.mirrored.under .min).setting s.mirrored.cuts
      = (activeCuts (s.under .max).setting s.cuts).map Cut.mirrored := by
    show (if s.setting.final then [] else s.cuts.map Cut.mirrored)
      = (if s.setting.final then [] else s.cuts).map Cut.mirrored
    split_ifs <;> rfl
  unfold assembly
  rw [hcuts]
  generalize activeCuts (s.under .max).setting s.cuts = cuts
  refine ⟨?_, ?_, ?_, ?_, ?_⟩
  · have hcosts : (costs.map (- ·)).map (towardsMin .min) = costs.map (towardsMin .max) := by
      simp [towardsMin]
    show OnlyLast Mirror (_ ++ costs.map (towardsMin .max) ++ [-1])
      (_ ++ (costs.map (- ·)).map (towardsMin .min) ++ [1])
    rw [hcosts]
    exact onlyLast_append (.neg 1)
  · refine List.rel_append (List.rel_append p.copyRows_mirrors p.stageRows_mirrors) ?_
    rw [List.map_map, List.forall₂_map_left_iff, List.forall₂_map_right_iff]
    exact List.forall₂_same.mpr fun c _ => p.cutRow_mirrors c
  · show x ++ rhs ++ cuts.map (fun c => -(-c.intercept))
      = x ++ rhs ++ (cuts.map Cut.mirrored).map (fun c => -c.intercept)
    rw [List.map_map]
    rfl
  · dsimp only
    rw [List.map_map]
    rfl
  · exact ⟨_, _, _, rfl, rfl, thetaRange_mirrors s.setting⟩

omit [IsSymmetric α] in
theorem scenario_mirrored (p : LinearStage α) (scenarios : Nat) (k : Int) :
    p.mirrored.scenario scenarios k
      = (p.scenario scenarios k).map fun r => (r.1.map (- ·), r.2) := by
  cases k with
  | negSucc n => rfl
  | ofNat n =>
    simp only [scenario, mirrored, List.getElem?_map]
    split_ifs
    · cases p.costs[n]? <;> cases p.rhs[n]? <;> rfl
    · rfl

/-- The program of a stage that maximizes is that of the mirrored stage that minimizes,
but for the sign of `theta`. -/
theorem assemble_mirrors (p : LinearStage α) (s : Situation α) (x : Point α) (k : Int) :
    Transition.Alike Assembly.MirrorsTheta Eq (p.assemble (s.under .max) x k)
      (p.mirrored.assemble (s.mirrored.under .min) x k) := by
  unfold assemble
  refine (Transition.Alike.refl Eq.refl Eq.refl (StageProblem.checkState p.stateCount x)).bind
    fun _ _ _ => ?_
  show Transition.Alike _ _ (p.scenario s.scenarios k >>= _)
    (p.mirrored.scenario s.scenarios k >>= _)
  rw [scenario_mirrored]
  cases p.scenario s.scenarios k with
  | error e => exact .error rfl
  | ok r => exact .ok (p.assembly_mirrors s x r.1 r.2)

end LinearStage

/-! ## Both senses -/

/-- Maximization is the mirror image of minimization, also in doubles, up to the sign of
zeros: with duals and objective values of the other sign a measure builds the cut with the
other sign, mirrored cuts get the same votes, mirrored samples have the mirrored interval,
whatever the quantiles are, mirrored figures have the same gap, and the program of a stage
is that of the mirrored stage, whose bound is the one with the other sign, but for the sign
of `theta`. -/
theorem maximization_mirrors (r : Rule Float) (hr : r.IsStandard) :
    (∀ (x pi theta prob : Tensor Float) (pair : Option (Value × Value)),
      Transition.Related Eq Cut.Mirrors Eq
        (r.generate (.ok .max) (Batch.ofTensors x (pi.map (- ·)) (theta.map (- ·)) prob) pair)
        (r.generate (.ok .min) (Batch.ofTensors x pi theta prob) pair)) ∧
    (∀ s : Store Float, s.mirrored.countVotes .max = s.countVotes .min) ∧
    (∀ (studentQuantile : Float → Nat → Float) (samples : List Float) (level : Value),
      let _ := Statistical.ofQuantile studentQuantile
      Transition.Alike (Option.Rel fun i j => Mirror i.1 j.1 ∧ i.2.Mirrors j.2) Eq
        (confidenceIntervalOf (samples.map (- ·)) level) (confidenceIntervalOf samples level)) ∧
    (∀ f : Figures Float,
      Transition.Alike Agree Eq (f.mirrored.gapOfValues .max) (f.gapOfValues .min)) ∧
    (∀ (p : LinearStage Float) (s : Situation Float) (x : Point Float) (k : Int),
      Transition.Alike LinearStage.Assembly.MirrorsTheta Eq (p.assemble (s.under .max) x k)
        (p.mirrored.assemble (s.mirrored.under .min) x k)) ∧
    ∀ b : Float, limit (-b) = (limit b).mirrored :=
  ⟨hr.generate_mirrors, Store.countVotes_mirrored,
    fun q samples => confidenceIntervalOf_mirror q (forall₂_mirror_neg samples),
    Figures.gapOfValues_mirrored, LinearStage.assemble_mirrors, Binary64.limit_neg⟩

/-- Maximization with the worse half of the scenarios in some stages and their expectation
elsewhere. -/
theorem maximization_mirrors_staged :
    (Rule.staged (fun _ _ => .nested (0.5 : Float) 1 0) .expectation).IsStandard ∧
      Transition.Related Eq Cut.Mirrors Eq
        ((Rule.staged (fun _ _ => .nested (0.5 : Float) 1 0) .expectation).generate (.ok .max)
          (Batch.ofTensors ⟨[1], [3]⟩ (Tensor.map (- ·) ⟨[2, 1], [1, 2]⟩)
            (Tensor.map (- ·) ⟨[2], [4, 4]⟩) ⟨[2], [0.5, 0.5]⟩) (some (.int 1, .int 0)))
        ((Rule.staged (fun _ _ => .nested (0.5 : Float) 1 0) .expectation).generate (.ok .min)
          (Batch.ofTensors ⟨[1], [3]⟩ ⟨[2, 1], [1, 2]⟩ ⟨[2], [4, 4]⟩ ⟨[2], [0.5, 0.5]⟩)
          (some (.int 1, .int 0))) := by
  have hr : (Rule.staged (fun _ _ => .nested (0.5 : Float) 1 0) .expectation).IsStandard :=
    .staged (fun _ _ => .nested 0.5 1 0) .expectation
  exact ⟨hr, (maximization_mirrors _ hr).1 _ _ _ _ _⟩

end Multistage
