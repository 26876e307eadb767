/-
Multistage.Proofs.Risk.Staged — what a staged measure does with its choice.

A staged measure selects a measure for a stage and Markov state and asks it for a cut,
without telling it the stage.  A choice that is staged itself then falls back, to any
depth (`Rule.unstaged`), and a choice that has a rule for stages only has no cut.  So a
staged measure answers as its choice would exactly if the choice pays no heed to the
stage (`Rule.staged_answersAs_iff`).
-/
import Multistage.Proofs.Exact
import Multistage.Proofs.Transition
import Multistage.Risk.Measure
import Mathlib.Algebra.Order.Ring.Rat

namespace Multistage

variable {α : Type}

/-- What builds the cuts of a measure that is not told the stage. -/
def Rule.unstaged : Rule α → Rule α
  | staged _ fallback => fallback.unstaged
  | r => r

variable [Scalar α]

/-- Whether a batch is what four arrays form. -/
def Batch.IsFormed (b : Batch α) : Prop :=
  ∃ x pi theta prob, Batch.ofTensors x pi theta prob = .ok b

namespace Rule

/-- What a measure answers to a batch, at a stage and Markov state if they are given: a cut
or a failure. -/
def answer (r : Rule α) (s : Sense) (b : Batch α) (pair : Option (Value × Value))
    (buffers : Buffers α) : Except Failure (Cut α) :=
  ((r.generate (.ok s) (.ok b) pair).perform buffers).1

/-- Whether two measures answer alike at a stage and Markov state. -/
def AnswersAs (r m : Rule α) (t i : Value) : Prop :=
  ∀ s b buffers, b.IsFormed →
    r.answer s b (some (t, i)) buffers = m.answer s b (some (t, i)) buffers

/-- Whether a measure answers at a stage and Markov state as it does without.  The
expectation and the nested measure do.  A measure with a rule for stages does if this rule
agrees with its plain one, and a staged measure if its choice agrees with its fallback. -/
def IgnoresStage (t i : Value) : Rule α → Prop
  | staged select fallback => ∀ s b buffers, b.IsFormed →
    (select t i).unstaged.answer s b none buffers = fallback.unstaged.answer s b none buffers
  | custom name rule (some stageRule) => ∀ b, b.IsFormed →
    stageRule b t i = match rule with
      | some f => .ok (f b)
      | none => .error (.unsupportedMeasure name)
  | _ => True

/-! ## Answers without a stage -/

/-- Batch and sense being in order, a measure has nothing left to check. -/
theorem generate_perform_ok (r : Rule α) (s : Sense) (b : Batch α) (pair : Option (Value × Value))
    (buffers : Buffers α) :
    (r.generate (.ok s) (.ok b) pair).perform buffers = (r.cut s b pair).perform buffers := by
  cases r with
  | foreign given =>
    cases pair with
    | none => rfl
    | some e => rfl
  | expectation => rfl
  | nested beta lambda slot => rfl
  | staged select fallback => rfl
  | custom name rule stageRule => rfl

theorem cut_unstaged (r : Rule α) (s : Sense) (b : Batch α) :
    r.cut s b none = r.unstaged.cut s b none := by
  induction r with
  | staged select fallback _ ih =>
    rw [cut, unstaged]
    exact ih
  | expectation => rfl
  | nested beta lambda slot => rfl
  | custom name rule stageRule => rfl
  | foreign given => rfl

/-- The choice is asked without the stage. -/
theorem staged_perform (select : Value → Value → Rule α) (fallback : Rule α) (s : Sense)
    (b : Batch α) (t i : Int) (buffers : Buffers α) :
    ((staged select fallback).cut s b (some (.int t, .int i))).perform buffers
      = ((select (.int t) (.int i)).unstaged.cut s b none).perform buffers := by
  rw [← cut_unstaged]
  rfl

/-! ## Answers at a stage -/

theorem ignoresStage_iff {r : Rule α} {t i : Int} :
    r.IgnoresStage (.int t) (.int i) ↔ ∀ s b buffers, b.IsFormed →
      r.answer s b (some (.int t, .int i)) buffers = r.answer s b none buffers := by
  unfold answer
  simp only [generate_perform_ok]
  cases r with
  | expectation => exact iff_of_true True.intro fun _ _ _ _ => rfl
  | nested beta lambda slot => exact iff_of_true True.intro fun _ _ _ _ => rfl
  | foreign given => exact iff_of_true True.intro fun _ _ _ _ => rfl
  | staged select fallback =>
    unfold IgnoresStage answer
    simp only [generate_perform_ok, staged_perform, cut_unstaged (staged select fallback)]
    rfl
  | custom name rule stageRule =>
    cases stageRule with
    | none =>
      refine iff_of_true True.intro fun s b buffers _ => ?_
      cases rule with
      | none => rfl
      | some f => rfl
    | some g =>
      -- neither rule looks at the sense or at the buffers
      constructor
      · intro h s b buffers hb
        cases rule with
        | none => exact h b hb
        | some f => exact h b hb
      · intro h b hb
        have hall := h .min b (fun _ => []) hb
        cases rule with
        | none => exact hall
        | some f => exact hall

/-- At every stage and Markov state a staged measure does what its choice does without
being told the stage.  It answers as its choice would there exactly if the choice ignores
the stage. -/
theorem staged_answersAs_iff (select : Value → Value → Rule α) (fallback : Rule α) (t i : Int) :
    (∀ s b buffers,
      ((staged select fallback).generate (.ok s) (.ok b) (some (.int t, .int i))).perform buffers
        = ((select (.int t) (.int i)).unstaged.generate (.ok s) (.ok b) none).perform buffers) ∧
    ((staged select fallback).AnswersAs (select (.int t) (.int i)) (.int t) (.int i)
      ↔ (select (.int t) (.int i)).IgnoresStage (.int t) (.int i)) := by
  have hsame : ∀ s b buffers,
      ((staged select fallback).generate (.ok s) (.ok b) (some (.int t, .int i))).perform buffers
        = ((select (.int t) (.int i)).unstaged.generate (.ok s) (.ok b) none).perform buffers := by
    intro s b buffers
    rw [generate_perform_ok, generate_perform_ok, staged_perform]
  refine ⟨hsame, ?_⟩
  have hanswer : ∀ s b buffers, (staged select fallback).answer s b (some (.int t, .int i)) buffers
      = (select (.int t) (.int i)).answer s b none buffers := by
    intro s b buffers
    unfold answer
    rw [hsame, generate_perform_ok, generate_perform_ok, ← cut_unstaged]
  rw [ignoresStage_iff]
  unfold AnswersAs
  simp only [hanswer]
  exact forall₄_congr fun _ _ _ _ => eq_comm

/-- A measure that has a rule for stages only: the cut of a stage is the number of the
stage, with the number of the Markov state for every slope. -/
def stageOnly : Rule ℚ :=
  .custom "StageOnly" none <| some fun b t i =>
    match t, i with
    | .int t, .int i => .ok ⟨t, b.state.map fun _ => i⟩
    | _, _ => .error .wrongKind

/-- It has a cut at stage one, but none as the choice of a staged measure. -/
theorem stageOnly_not_answered : ∃ b,
    Batch.ofTensors (Tensor.vector [2]) (Tensor.ofRows 1 [[1]]) (Tensor.vector [3])
      (Tensor.vector [1]) = .ok b ∧
    stageOnly.answer .min b (some (.int 1, .int 0)) (fun _ => []) = .ok ⟨1, [0]⟩ ∧
    (staged (fun _ _ => stageOnly) .expectation).answer .min b (some (.int 1, .int 0)) (fun _ => [])
      = .error (.unsupportedMeasure "StageOnly") ∧
    ¬(staged (fun _ _ => stageOnly) .expectation).AnswersAs stageOnly (.int 1) (.int 0) := by
  have hbatch : Batch.ofTensors (Tensor.vector [(2 : ℚ)]) (Tensor.ofRows 1 [[1]])
      (Tensor.vector [3]) (Tensor.vector [1]) = .ok ⟨[2], [[1]], [3], [1], [], []⟩ := by
    rfl
  refine ⟨_, hbatch, rfl, rfl, fun h => ?_⟩
  have hignores := (staged_answersAs_iff (fun _ _ => stageOnly) .expectation 1 0).2.mp h
  cases hignores _ ⟨_, _, _, _, hbatch⟩

end Rule

end Multistage
