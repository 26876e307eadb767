/-
Multistage.Proofs.Policy.FirstStage — from the solutions of the first stage to the
bound.

The solutions of the first stage rest on the configuration and on the problems of
the first stage alone.  Once they are at hand, the bound is set without any further
solution, unless the scenario probabilities of the first stage are no vectors.
-/
import Multistage.Policy.Bound
import Multistage.Proofs.Except
import Multistage.Proofs.Transition

namespace Multistage

namespace Model

variable {α : Type}

/-- The scenario probabilities of the first stage. -/
def firstRows (m : Model α) : List (Tensor α) := (m.configuration.scenarios[0]?).getD []

section Scalar

variable [Scalar α]

/-- The bound that solutions of the first stage yield. -/
def boundWith (m : Model α) (solutions : List (List (StageSolution α))) : α :=
  boundOf m.configuration.initial
    (List.zipWith (fun q => expectedObjective q.entries) m.firstRows solutions)

/-- Solves the first stage and sets the bound. -/
def updateBound : Transition (Model α) Unit := do
  discard solveFirstStage
  discard setBound

/-- Loads all problems and computes the bound anew. -/
def rebound (selection : Selection) (recount : Bool) : Transition (Model α) Unit := do
  reload selection recount
  updateBound

omit [Scalar α] in
theorem solveFirstStage_perform (m : Model α) :
    solveFirstStage.perform m
      = match m.firstStageSolutions with
        | .error e => (.error e, m)
        | .ok solutions => (.ok solutions, { m with firstStage := solutions }) := by
  unfold solveFirstStage
  rw [Transition.perform_bind_ok (Transition.perform_get m), Transition.perform_bind,
    Transition.perform_outcome]
  cases m.firstStageSolutions with
  | error e => rfl
  | ok solutions => rfl

/-- With solutions at hand, setting the bound solves nothing. -/
theorem setBound_perform {m : Model α} (h : m.firstStageSolutions = .ok m.firstStage) :
    setBound.perform m
      = match checkExpectation m.configuration.initial m.firstRows with
        | .error e => (.error e, m)
        | .ok _ => (.ok (m.boundWith m.firstStage),
            { m with figures := m.figures.withBound (m.boundWith m.firstStage) }) := by
  have hset : (do
      let m ← get
      let rows := (m.configuration.scenarios[0]?).getD []
      Transition.outcome (checkExpectation m.configuration.initial rows)
      let bound := boundOf m.configuration.initial
        (List.zipWith (fun (q : Tensor α) => expectedObjective q.entries) rows m.firstStage)
      set { m with figures := m.figures.withBound bound }
      return bound : Transition (Model α) α).perform m
        = match checkExpectation m.configuration.initial m.firstRows with
          | .error e => (.error e, m)
          | .ok _ => (.ok (m.boundWith m.firstStage),
              { m with figures := m.figures.withBound (m.boundWith m.firstStage) }) := by
    rw [Transition.perform_bind_ok (Transition.perform_get m)]
    dsimp only
    rw [Transition.perform_bind, Transition.perform_outcome]
    unfold firstRows
    cases checkExpectation m.configuration.initial ((m.configuration.scenarios[0]?).getD []) with
    | error e => rfl
    | ok u => rfl
  unfold setBound
  rw [Transition.perform_bind_ok (Transition.perform_get m)]
  dsimp only
  split
  · -- solving once more, where there are no Markov states, changes nothing
    have hsolve : (Functor.discard solveFirstStage : Transition (Model α) PUnit).perform m
        = (.ok ⟨⟩, m) := by
      rw [Transition.perform_discard, solveFirstStage_perform, h]
      rfl
    rw [Transition.perform_bind_ok hsolve]
    exact hset
  · exact hset

theorem updateBound_perform (m : Model α) :
    updateBound.perform m
      = match m.firstStageSolutions with
        | .error e => (.error e, m)
        | .ok solutions =>
          match checkExpectation m.configuration.initial m.firstRows with
          | .error e => (.error e, { m with firstStage := solutions })
          | .ok _ => (.ok ⟨⟩,
              { m with
                firstStage := solutions
                figures := m.figures.withBound (m.boundWith solutions) }) := by
  unfold updateBound
  rw [Transition.perform_bind, Transition.perform_discard, solveFirstStage_perform]
  cases hsolutions : m.firstStageSolutions with
  | error e => rfl
  | ok solutions =>
    have hbound := setBound_perform (m := { m with firstStage := solutions }) hsolutions
    show (Functor.discard setBound : Transition (Model α) PUnit).perform
      { m with firstStage := solutions } = _
    rw [Transition.perform_discard, hbound]
    have hrows : ({ m with firstStage := solutions } : Model α).firstRows = m.firstRows := rfl
    rw [hrows]
    dsimp only
    cases checkExpectation m.configuration.initial m.firstRows with
    | error e => rfl
    | ok u => rfl

/-- Vectors of scenario probabilities yield a number. -/
theorem checkExpectation_vectors {initial : List α} {rows : List (Tensor α)}
    (h : ∀ q ∈ rows, ∃ v, q = Tensor.vector v) : checkExpectation initial rows = .ok () := by
  have hfold : ∀ pairs : List (α × Tensor α), (∀ e ∈ pairs, e.2.shape.tail = []) →
      pairs.foldlM (fun sum e =>
        if e.1 == 0 then pure sum
        else if sum.isEmpty then pure e.2.shape.tail
        else if Tensor.fitsInto e.2.shape.tail sum then pure sum
        else throw (.badValue "operands could not be broadcast together")) []
        = (.ok [] : Except Failure (List Nat)) := by
    intro pairs
    induction pairs with
    | nil => exact fun _ => rfl
    | cons e pairs ih =>
      intro hpairs
      obtain ⟨he, hrest⟩ := List.forall_mem_cons.mp hpairs
      rw [List.foldlM_cons, he]
      split
      · exact ih hrest
      · exact ih hrest
  have htails : ∀ e ∈ initial.zip rows, e.2.shape.tail = [] := by
    rintro ⟨p, q⟩ he
    obtain ⟨v, rfl⟩ := h q (List.of_mem_zip he).2
    rfl
  exact congrArg (· >>= fun shape => if shape.isEmpty then pure () else throw .wrongKind)
    (hfold _ htails)

/-! ## What becomes of the model -/

/-- Whatever comes of it, nothing changes but solutions and figures. -/
theorem updateBound_model (m : Model α) :
    ∃ firstStage figures, (updateBound.perform m).2 = { m with firstStage, figures } := by
  rw [updateBound_perform]
  cases m.firstStageSolutions with
  | error e => exact ⟨_, _, rfl⟩
  | ok solutions =>
    dsimp only
    split
    · exact ⟨_, _, rfl⟩
    · exact ⟨_, _, rfl⟩

/-- Without solutions everything stays as it is. -/
theorem updateBound_error {m : Model α} {e : Failure} (h : m.firstStageSolutions = .error e) :
    updateBound.perform m = (.error e, m) := by
  rw [updateBound_perform, h]

theorem updateBound_vectors {m : Model α} {solutions : List (List (StageSolution α))}
    (h : m.firstStageSolutions = .ok solutions)
    (hvectors : ∀ q ∈ m.firstRows, ∃ v, q = Tensor.vector v) :
    updateBound.perform m = (.ok ⟨⟩,
      { m with
        firstStage := solutions
        figures := m.figures.withBound (m.boundWith solutions) }) := by
  rw [updateBound_perform, h]
  dsimp only
  rw [checkExpectation_vectors hvectors]

/-- Once there is a bound, there are solutions, and it comes from them. -/
theorem updateBound_eq_ok {m m' : Model α} (h : updateBound.perform m = (.ok ⟨⟩, m')) :
    ∃ solutions, m.firstStageSolutions = .ok solutions ∧
      m' = { m with
        firstStage := solutions
        figures := m.figures.withBound (m.boundWith solutions) } := by
  rw [updateBound_perform] at h
  cases hsolutions : m.firstStageSolutions with
  | error e =>
    rw [hsolutions] at h
    cases h
  | ok solutions =>
    rw [hsolutions] at h
    dsimp only at h
    split at h
    · cases h
    · exact ⟨solutions, rfl, (Prod.mk.inj h).2.symm⟩

/-- With vectors of scenario probabilities only the solutions can fail, and then
everything stays as it is. -/
theorem updateBound_failed {m : Model α} {e : Failure}
    (hvectors : ∀ q ∈ m.firstRows, ∃ v, q = Tensor.vector v)
    (h : (updateBound.perform m).1 = .error e) : (updateBound.perform m).2 = m := by
  cases hsolutions : m.firstStageSolutions with
  | error e' => rw [updateBound_error hsolutions]
  | ok solutions =>
    rw [updateBound_vectors hsolutions hvectors] at h
    cases h

/-- A failure leaves the figures alone. -/
theorem updateBound_figures {m : Model α} {e : Failure}
    (h : (updateBound.perform m).1 = .error e) : (updateBound.perform m).2.figures = m.figures := by
  rw [updateBound_perform] at h ⊢
  cases hsolutions : m.firstStageSolutions with
  | error e => rfl
  | ok solutions =>
    rw [hsolutions] at h
    dsimp only at h ⊢
    split at h
    · rfl
    · cases h

end Scalar

end Model

end Multistage
