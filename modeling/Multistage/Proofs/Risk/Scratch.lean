/-
Multistage.Proofs.Risk.Scratch — a scratch buffer says nothing of earlier cuts.

A nested measure keeps its buffer from cut to cut, with the old weights in it, and the
buffer may be longer than the batch at hand.  Of a flat batch every scenario is visited and
writes its weight, and the weights that are read are those of the scenarios.  So the cut is
the same whatever the buffer holds (`Rule.nestedCut_flat`), for every measure that may reach
the buffer (`Rule.cut_flat`).  The buffer itself grows to the largest batch that has reached
it, and `Rule.slot?` says which calls reach a buffer.

Nothing is assumed of the arithmetic, so this holds of rounded numbers, too.
-/
import Multistage.Proofs.Risk.Shapes
import Multistage.Proofs.Risk.Staged
import Multistage.Proofs.Tensor

namespace Multistage

variable {α : Type} [Scalar α]

/-! ## Visits -/

theorem worstFirst_perm (s : Sense) (theta : List α) :
    (worstFirst s theta).Perm (List.range theta.length) := by
  unfold worstFirst
  refine ((List.mergeSort_perm _ _).map Prod.snd).trans ?_
  rw [List.zipIdx_map_snd]
  cases s <;> simp [List.range_eq_range']

namespace TailFill

/-- What a visit writes and collects does not depend on the buffer. -/
theorem visit_writes (lambda beta collected : α) (i : Nat) (p : α) : ∃ w collected', ∀ buffer,
    (⟨buffer, collected⟩ : TailFill α).visit lambda beta i p = ⟨buffer.set i w, collected'⟩ := by
  unfold visit
  by_cases h : collected < beta
  · simp only [if_pos h]
    exact ⟨_, _, fun _ => rfl⟩
  · simp only [if_neg h]
    exact ⟨_, _, fun _ => rfl⟩

/-- Two buffers agree after a run wherever they have been visited, and wherever they have
agreed before. -/
theorem run_agree (lambda beta : α) (p : List α) :
    ∀ (is : List Nat) (a b : List α) (collected : α), (∀ i ∈ is, i < p.length) →
      (∀ i ∈ is, i < a.length) → (∀ i ∈ is, i < b.length) →
      ∃ f g, run lambda beta p is ⟨a, collected⟩ = .ok f ∧
        run lambda beta p is ⟨b, collected⟩ = .ok g ∧
        f.buffer.length = a.length ∧ g.buffer.length = b.length ∧
        ∀ j, j ∈ is ∨ a[j]? = b[j]? → f.buffer[j]? = g.buffer[j]?
  | [], a, b, _, _, _, _ => ⟨_, _, rfl, rfl, rfl, rfl, fun j hj => by simpa using hj⟩
  | i :: is, a, b, collected, hp, ha, hb => by
    obtain ⟨hi, hp⟩ := List.forall_mem_cons.mp hp
    obtain ⟨hia, ha⟩ := List.forall_mem_cons.mp ha
    obtain ⟨hib, hb⟩ := List.forall_mem_cons.mp hb
    obtain ⟨w, collected', hvisit⟩ := visit_writes lambda beta collected i p[i]
    obtain ⟨f, g, hf, hg, hlenf, hleng, hagree⟩ := run_agree lambda beta p is (a.set i w)
      (b.set i w) collected' hp (by simpa using ha) (by simpa using hb)
    simp only [List.length_set] at hlenf hleng
    refine ⟨f, g, ?_, ?_, hlenf, hleng, fun j hj => hagree j ?_⟩
    · rw [run, List.getElem?_eq_getElem hi]
      simpa only [hvisit] using hf
    · rw [run, List.getElem?_eq_getElem hi]
      simpa only [hvisit] using hg
    · by_cases hji : i = j
      · subst hji
        exact .inr (by rw [List.getElem?_set_self hia, List.getElem?_set_self hib])
      · rw [List.getElem?_set_ne hji, List.getElem?_set_ne hji]
        exact hj.imp_left fun hmem => (List.mem_cons.mp hmem).resolve_left (Ne.symm hji)

end TailFill

/-- There is one list of weights for all buffers, and it stands at their start. -/
theorem exists_weights (s : Sense) {p theta : List α} (h : theta.length = p.length)
    (lambda beta : α) : ∃ w, ∀ buffer : List α, p.length ≤ buffer.length →
      ∃ filled, reweight buffer (.ok s) p theta lambda beta = .ok filled ∧
        filled.length = buffer.length ∧ filled.take p.length = w := by
  have hvisited : ∀ i, i ∈ worstFirst s theta ↔ i < p.length := by
    intro i
    rw [(worstFirst_perm s theta).mem_iff, List.mem_range, h]
  have hrun := fun (buffer : List α) (hlen : p.length ≤ buffer.length) =>
    TailFill.run_agree lambda beta p (worstFirst s theta) buffer p 0
      (fun i hi => (hvisited i).mp hi) (fun i hi => Nat.lt_of_lt_of_le ((hvisited i).mp hi) hlen)
      (fun i hi => (hvisited i).mp hi)
  -- the weights as they are written into a buffer of their length
  obtain ⟨-, g, -, hg, -, hleng, -⟩ := hrun p (Nat.le_refl _)
  refine ⟨g.buffer, fun buffer hlen => ?_⟩
  obtain ⟨f, g', hf, hg', hlenf, -, hagree⟩ := hrun buffer hlen
  obtain rfl : g = g' := Except.ok.inj (hg.symm.trans hg')
  refine ⟨f.buffer, ?_, hlenf, List.ext_getElem? fun j => ?_⟩
  · unfold reweight checkBuffer
    rw [if_neg (Nat.not_lt.mpr hlen)]
    show (TailFill.run lambda beta p (worstFirst s theta) ⟨buffer, 0⟩ >>=
      fun f => pure f.buffer) = _
    rw [hf]
    rfl
  · by_cases hj : j < p.length
    · rw [List.getElem?_take_of_lt hj]
      exact hagree j (.inl ((hvisited j).mpr hj))
    · rw [List.getElem?_eq_none (by simp; omega), List.getElem?_eq_none (by omega)]

/-! ## Flat batches -/

theorem length_growBuffer (n : Nat) (buffer : List α) :
    (growBuffer n buffer).length = max n buffer.length := by
  simp only [growBuffer, List.length_append, List.length_replicate]
  omega

/-- A batch of single numbers, one objective value and one probability per scenario. -/
structure Batch.IsFlat (b : Batch α) : Prop where
  objectives : b.objectives.length = b.size
  probabilities : b.probabilities.length = b.size
  objectiveShape : b.objectiveShape = []
  probabilityShape : b.probabilityShape = []

/-- Vectors of objective values and probabilities form flat batches. -/
theorem Batch.ofTensors_isFlat {x pi : Tensor α} {theta prob : List α} {b : Batch α}
    (h : ofTensors x pi (Tensor.vector theta) (Tensor.vector prob) = .ok b) : b.IsFlat := by
  unfold ofTensors at h
  split at h
  · cases h
  · rename_i hcheck
    obtain ⟨n, scenarios, hshapes⟩ := check_eq_ok.mp hcheck
    obtain ⟨_, htheta⟩ := hshapes.objectives
    obtain ⟨_, hprob⟩ := hshapes.probabilities
    have hlen : theta.length = prob.length :=
      (List.cons.inj htheta).1.trans (List.cons.inj hprob).1.symm
    cases h
    exact ⟨by simp [size, Tensor.vector, hlen], by simp [size, Tensor.vector], rfl, rfl⟩

/-- The slot whose buffer a measure uses for a cut, at a stage and Markov state if they are
given. -/
def Rule.slot? : Rule α → Option (Value × Value) → Option Nat
  | .nested _ _ slot, _ => some slot
  | .staged select _, some (t, i) =>
    match Named.checkName t with
    | .ok _ => (select t i).slot? none
    | .error _ => none
  | .staged _ fallback, none => fallback.slot? none
  | _, _ => none

/-- Whether the buffer of a slot, if there is one, has grown to a number of scenarios, while
the others have kept their lengths. -/
def Buffers.HasGrown (slot : Option Nat) (n : Nat) (before after : Buffers α) : Prop :=
  ∀ k, (after k).length = max (if slot = some k then n else 0) (before k).length

namespace Rule

variable {b : Batch α}

/-- Of single numbers, the nested measure weighs the scenarios with the start of its buffer. -/
theorem nestedCut_perform {beta lambda : α} {slot : Nat} {s : Sense} {buffers : Buffers α}
    {filled : List α} (hplain : b.isPlain = true)
    (hrun : reweight (growBuffer b.size (buffers slot)) (.ok s) b.probabilities b.objectives
      lambda beta = .ok filled) :
    (nestedCut beta lambda slot s b).perform buffers
      = (.ok (b.weightedCut (filled.take b.size)),
          (buffers.put slot (growBuffer b.size (buffers slot))).put slot filled) := by
  simp [nestedCut, Transition.perform_bind, hplain, hrun, Except.map]

/-- The nested cut of a flat batch is one cut for all buffers. -/
theorem nestedCut_flat (hb : b.IsFlat) (beta lambda : α) (slot : Nat) (s : Sense) :
    ∃ c, ∀ buffers, ∃ buffers',
      (nestedCut beta lambda slot s b).perform buffers = (.ok c, buffers') ∧
      Buffers.HasGrown (some slot) b.size buffers buffers' := by
  obtain ⟨w, hw⟩ := exists_weights s (hb.objectives.trans hb.probabilities.symm) lambda beta
  refine ⟨b.weightedCut w, fun buffers => ?_⟩
  have hgrown := length_growBuffer b.size (buffers slot)
  obtain ⟨filled, hrun, hlen, htake⟩ := hw (growBuffer b.size (buffers slot))
    (by rw [hgrown, hb.probabilities]; exact Nat.le_max_left _ _)
  have hplain : b.isPlain = true := by
    simp [Batch.isPlain, hb.objectiveShape, hb.probabilityShape]
  refine ⟨(buffers.put slot (growBuffer b.size (buffers slot))).put slot filled, ?_, fun k => ?_⟩
  · rw [nestedCut_perform hplain hrun, ← htake, hb.probabilities]
  · by_cases hk : slot = k
    · subst hk
      simp [Buffers.put, hlen, hgrown]
    · simp [Buffers.put, hk, Ne.symm hk]

omit [Scalar α] in
/-- An outcome that leaves the buffers alone. -/
theorem outcome_flat (r : Except Failure (Cut α)) (n : Nat) :
    ∃ outcome, ∀ buffers, ∃ buffers',
      (Transition.outcome r : Transition (Buffers α) (Cut α)).perform buffers
        = (outcome, buffers') ∧ Buffers.HasGrown none n buffers buffers' :=
  ⟨r, fun buffers => ⟨buffers, rfl, fun _ => (Nat.zero_max _).symm⟩⟩

/-- A measure answers a flat batch in one way for all buffers, and only the buffer that it
uses changes its length. -/
theorem cut_flat (hb : b.IsFlat) (s : Sense) (r : Rule α) (pair : Option (Value × Value)) :
    ∃ outcome, ∀ buffers, ∃ buffers', (r.cut s b pair).perform buffers = (outcome, buffers') ∧
      Buffers.HasGrown (r.slot? pair) b.size buffers buffers' := by
  induction r generalizing pair with
  | expectation =>
    refine ⟨.ok (b.weightedCut b.probabilities), fun buffers =>
      ⟨buffers, ?_, fun _ => (Nat.zero_max _).symm⟩⟩
    simp [cut, Batch.checkSum, hb.objectiveShape, hb.probabilityShape, Except.map]
  | nested beta lambda slot =>
    obtain ⟨c, hc⟩ := nestedCut_flat hb beta lambda slot s
    exact ⟨.ok c, hc⟩
  | staged select fallback hselect hfallback =>
    cases pair with
    | none => exact hfallback none
    | some e =>
      rw [cut, slot?]
      rcases Named.checkName e.1 with why | _
      · exact outcome_flat (.error why) _
      · exact hselect e.1 e.2 none
  | custom name rule stageRule =>
    cases stageRule with
    | none =>
      cases rule with
      | none => exact outcome_flat (.error (.unsupportedMeasure name)) _
      | some f => exact outcome_flat (.ok (f b)) _
    | some g =>
      cases pair with
      | none =>
        cases rule with
        | none => exact outcome_flat (.error (.unsupportedMeasure name)) _
        | some f => exact outcome_flat (.ok (f b)) _
      | some e => exact outcome_flat (g b e.1 e.2) _
  | foreign given => exact outcome_flat (.error (.unsupportedMeasure given.kindName)) _

/-- What a measure answers to a flat batch does not depend on the buffers. -/
theorem answer_flat (hb : b.IsFlat) (r : Rule α) (s : Sense) (pair : Option (Value × Value))
    (buffers buffers' : Buffers α) : r.answer s b pair buffers = r.answer s b pair buffers' := by
  obtain ⟨outcome, hcut⟩ := cut_flat hb s r pair
  obtain ⟨_, hrun, -⟩ := hcut buffers
  obtain ⟨_, hrun', -⟩ := hcut buffers'
  rw [answer, answer, generate_perform_ok, generate_perform_ok, hrun, hrun']

/-- A call without a batch or without a sense does not reach the measure. -/
theorem generate_refused (r : Rule α) (sense : Except Failure Sense)
    (batch : Except Failure (Batch α)) (pair : Option (Value × Value))
    (h : (∃ e, batch = .error e) ∨ ∃ e, sense = .error e) :
    ∃ e, ∀ buffers, (r.generate sense batch pair).perform buffers = (.error e, buffers) := by
  unfold generate
  cases r.isForeign with
  | true => exact ⟨_, fun _ => rfl⟩
  | false =>
    cases batch with
    | error e => exact ⟨_, fun _ => rfl⟩
    | ok b =>
      obtain ⟨e, rfl⟩ := h.resolve_left nofun
      exact ⟨_, fun _ => rfl⟩

end Rule

/-! ## Series of calls -/

/-- A call for a cut: the measure, the sense and the batch as they were read, and a stage and
Markov state if they are given.  A batch that could be read is flat. -/
structure CutCall (α : Type) [Scalar α] where
  measure : Rule α
  sense : Except Failure Sense
  batch : Except Failure (Batch α)
  pair : Option (Value × Value) := none
  flat : ∀ b, batch = .ok b → b.IsFlat

namespace CutCall

/-- A call with vectors of objective values and probabilities. -/
def ofVectors (measure : Rule α) (sense : Except Failure Sense) (x pi : Tensor α)
    (theta prob : List α) (pair : Option (Value × Value) := none) : CutCall α where
  measure
  sense
  batch := Batch.ofTensors x pi (Tensor.vector theta) (Tensor.vector prob)
  pair
  flat _ := Batch.ofTensors_isFlat

/-- What a call does to the buffers, and its outcome. -/
def op (call : CutCall α) : Transition (Buffers α) (Cut α) :=
  call.measure.generate call.sense call.batch call.pair

/-- The size of the batch with which a call reaches a buffer. -/
def sizeAt (slot : Nat) (call : CutCall α) : Option Nat :=
  match call.batch, call.sense with
  | .ok b, .ok _ => if call.measure.slot? call.pair = some slot then some b.size else none
  | _, _ => none

/-- Every call has one outcome for all buffers, and lets the buffers grow to the batches that
reach them. -/
theorem op_spec (call : CutCall α) : ∃ outcome, ∀ buffers, ∃ buffers',
    call.op.perform buffers = (outcome, buffers') ∧
      ∀ k, (buffers' k).length = max ((call.sizeAt k).getD 0) (buffers k).length := by
  obtain ⟨r, sense, batch, pair, hflat⟩ := call
  dsimp only [op, sizeAt]
  match batch, sense with
  | .ok b, .ok s =>
    obtain ⟨outcome, hcut⟩ := Rule.cut_flat (hflat b rfl) s r pair
    refine ⟨outcome, fun buffers => ?_⟩
    obtain ⟨buffers', hrun, hgrown⟩ := hcut buffers
    refine ⟨buffers', ?_, fun k => ?_⟩
    · rw [Rule.generate_perform_ok, hrun]
    · rw [hgrown k]
      split
      · rfl
      · rfl
  | .error e, given =>
    obtain ⟨why, hwhy⟩ := Rule.generate_refused r given _ pair (.inl ⟨e, rfl⟩)
    exact ⟨_, fun buffers => ⟨buffers, hwhy buffers, fun _ => (Nat.zero_max _).symm⟩⟩
  | .ok b, .error e =>
    obtain ⟨why, hwhy⟩ := Rule.generate_refused r _ (.ok b) pair (.inr ⟨e, rfl⟩)
    exact ⟨_, fun buffers => ⟨buffers, hwhy buffers, fun _ => (Nat.zero_max _).symm⟩⟩

end CutCall

namespace Buffers

/-- Buffers that no call has reached. -/
def fresh : Buffers α := fun _ => []

/-- The buffers after some calls. -/
def after (buffers : Buffers α) (calls : List (CutCall α)) : Buffers α :=
  calls.foldl (fun buffers call => (call.op.perform buffers).2) buffers

theorem length_after (slot : Nat) (buffers : Buffers α) (calls : List (CutCall α)) :
    (buffers.after calls slot).length
      = max ((calls.filterMap (CutCall.sizeAt slot)).foldr max 0) (buffers slot).length := by
  induction calls generalizing buffers with
  | nil => simp [after]
  | cons call later ih =>
    obtain ⟨outcome, hspec⟩ := call.op_spec
    obtain ⟨buffers', hrun, hlen⟩ := hspec buffers
    have hstep : buffers.after (call :: later) = buffers'.after later := by
      rw [after, List.foldl_cons, hrun]
      rfl
    rw [hstep, ih, hlen slot, List.filterMap_cons]
    cases call.sizeAt slot with
    | none => simp
    | some n =>
      simp only [Option.getD_some, List.foldr_cons]
      omega

/-- However measures have been called before, the next call has the outcome that it has with
fresh buffers, and the buffer of a nested measure is as long as the largest batch that has
reached it. -/
theorem scratch_never_leaks (history : List (CutCall α)) :
    (∀ next : CutCall α, (next.op.perform (fresh.after history)).1 = (next.op.perform fresh).1) ∧
    ∀ (beta lambda : α) (slot : Nat),
      RiskMeasure.storageSize ⟨.nested beta lambda slot, fresh.after history⟩
        = some ((history.filterMap (CutCall.sizeAt slot)).foldr max 0) := by
  refine ⟨fun next => ?_, fun beta lambda slot => ?_⟩
  · obtain ⟨outcome, hspec⟩ := next.op_spec
    obtain ⟨_, hlate, -⟩ := hspec (fresh.after history)
    obtain ⟨_, hfresh, -⟩ := hspec fresh
    rw [hlate, hfresh]
  · show some (fresh.after history slot).length = _
    rw [length_after]
    simp [fresh]

/-- Half an expectation and half a tail: three scenarios, then two with a probability below
zero, which are refused, then two through a choice by stage. -/
theorem scratch_never_leaks_shorter :
    let nested : Rule Float := .nested 0.5 0.5 0
    let three := CutCall.ofVectors nested (.ok .min) ⟨[1], [0]⟩ ⟨[3, 1], [1, 2, 3]⟩ [5, 7, 6]
      [0.25, 0.25, 0.5]
    let refused := CutCall.ofVectors nested (.ok .min) ⟨[1], [0]⟩ ⟨[2, 1], [1, 2]⟩ [5, 7] [-1, 2]
    let two := CutCall.ofVectors (.staged (fun _ _ => nested) .expectation) (.ok .max)
      ⟨[1], [0]⟩ ⟨[2, 1], [1, 2]⟩ [5, 7] [0.5, 0.5] (some (.int 1, .int 0))
    [three, refused, two].map (fun call => call.batch.isOk) = [true, false, true] ∧
      (two.op.perform (Buffers.fresh.after [three, refused])).1
        = (two.op.perform Buffers.fresh).1 ∧
      RiskMeasure.storageSize ⟨.nested 0.5 0.5 0, Buffers.fresh.after [three, refused, two]⟩
        = some 3 := by
  intro nested three refused two
  refine ⟨by decide +kernel, (scratch_never_leaks [three, refused]).1 two, ?_⟩
  exact ((scratch_never_leaks [three, refused, two]).2 0.5 0.5 0).trans (by decide +kernel)

end Buffers

end Multistage
