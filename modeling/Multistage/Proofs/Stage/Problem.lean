/-
Multistage.Proofs.Stage.Problem — when a stage problem takes what it is given.

A stage problem checks the dimension of incoming states and of cuts and does
nothing else of its own.
-/
import Multistage.Proofs.Except
import Multistage.Stage.Problem

namespace Multistage.StageProblem

variable {α : Type} {p p' : StageProblem α}

theorem checkState_eq_ok {n : Int} {x : Point α} {u : Unit} :
    checkState n x = .ok u ↔ (x.length : Int) = n := by
  unfold checkState
  split
  · rename_i h
    exact iff_of_true rfl h
  · rename_i h
    exact iff_of_false (by simp) h

theorem checkCut_eq_ok {c : Cut α} {u : Unit} :
    p.checkCut c = .ok u ↔ (c.stateCount : Int) = p.stateCount := by
  unfold checkCut
  split
  · rename_i h
    exact iff_of_true rfl h
  · rename_i h
    exact iff_of_false (by simp) h

theorem solve_eq_ok {x : Point α} {k : Int} {sol : StageSolution α} :
    p.solve x k = .ok sol
      ↔ (x.length : Int) = p.stateCount ∧ p.answer p.situation x k = .ok sol := by
  unfold solve
  rw [bind_eq_ok]
  constructor
  · rintro ⟨_, hstate, h⟩
    exact ⟨checkState_eq_ok.mp hstate, h⟩
  · rintro ⟨hx, h⟩
    exact ⟨(), checkState_eq_ok.mpr hx, h⟩

theorem addCut_eq_ok {c : Cut α} :
    p.addCut c = .ok p'
      ↔ (c.stateCount : Int) = p.stateCount ∧ p' = { p with cuts := p.cuts ++ [c] } := by
  unfold addCut
  rw [bind_eq_ok]
  constructor
  · rintro ⟨_, hcut, h⟩
    exact ⟨checkCut_eq_ok.mp hcut, (pure_eq_ok.mp h).symm⟩
  · rintro ⟨hcut, rfl⟩
    exact ⟨(), checkCut_eq_ok.mpr hcut, rfl⟩

theorem setCuts_eq_ok {cuts : List (Cut α)} :
    p.setCuts cuts = .ok p'
      ↔ (∀ c ∈ cuts, (c.stateCount : Int) = p.stateCount) ∧ p' = { p with cuts := cuts } := by
  unfold setCuts
  rw [bind_eq_ok]
  constructor
  · rintro ⟨_, hcuts, h⟩
    exact ⟨fun c hc => checkCut_eq_ok.mp (forM_eq_ok.mp hcuts c hc), (pure_eq_ok.mp h).symm⟩
  · rintro ⟨hcuts, rfl⟩
    exact ⟨(), forM_eq_ok.mpr fun c hc => checkCut_eq_ok.mpr (hcuts c hc), rfl⟩

end Multistage.StageProblem
