/-
Multistage.Proofs.Stage.WellFormed — what construction checks.

A linear stage problem that has been constructed has matching parts: as many
right-hand sides, signs and rows of both matrices, as many costs, limits and
names as decisions, and states that are decisions.  The only thing taken for
granted is that the arrays it is constructed from are arrays, with as many
entries as their shape says.
-/
import Multistage.Proofs.Stage.Problem
import Multistage.Proofs.Tensor
import Multistage.Stage.Linear

namespace Multistage

variable {α : Type}

namespace LinearStage

/-- Arrays where arrays are meant. -/
structure Statement.IsRectangular (st : Statement α) : Prop where
  matrix : ∀ t, st.matrix = .ok t → t.IsRectangular
  costs : ∀ t, st.costs = .ok t → t.IsRectangular
  rhs : ∀ t, st.rhs = .ok t → t.IsRectangular
  inflow : ∀ t, st.inflow = .ok (some t) → t.IsRectangular

/-- The sizes of the parts of a linear stage problem agree. -/
structure IsRegular (p : LinearStage α) : Prop where
  rows : ∀ row ∈ p.rows, row.length = p.decisions
  inflow : p.inflow.length = p.rows.length
  inflowRows : ∀ row ∈ p.inflow, row.length = p.stateCount
  signs : p.signs.length = p.rows.length
  places : ∀ j ∈ p.stateOut, j < p.decisions
  ranges : p.ranges.length = p.decisions
  names : p.names.length = p.decisions
  costs : p.costs.length = p.probabilities.size
  costRows : ∀ row ∈ p.costs, row.length = p.decisions
  rhs : p.rhs.length = p.probabilities.size
  rhsRows : ∀ row ∈ p.rhs, row.length = p.rows.length

/-- A scenario in range has its costs and right-hand side. -/
theorem scenario_eq {p : LinearStage α} (hp : p.IsRegular) {k : Nat}
    (hk : k < p.probabilities.size) :
    ∃ costs rhs, p.costs[k]? = some costs ∧ p.rhs[k]? = some rhs ∧
      costs.length = p.decisions ∧ rhs.length = p.rows.length ∧
      p.scenario p.probabilities.size k = .ok (costs, rhs) := by
  have hkc : k < p.costs.length := by rwa [hp.costs]
  have hkb : k < p.rhs.length := by rwa [hp.rhs]
  refine ⟨p.costs[k], p.rhs[k], List.getElem?_eq_getElem hkc, List.getElem?_eq_getElem hkb,
    hp.costRows _ (List.getElem_mem hkc), hp.rhsRows _ (List.getElem_mem hkb), ?_⟩
  simp [scenario, hk, List.getElem?_eq_getElem hkc, List.getElem?_eq_getElem hkb]

theorem scenario_eq_ok {p : LinearStage α} {n : Nat} {k : Int} {costs rhs : List α}
    (h : p.scenario n k = .ok (costs, rhs)) :
    ∃ j : Nat, k = j ∧ j < n ∧ p.costs[j]? = some costs ∧ p.rhs[j]? = some rhs := by
  unfold scenario at h
  split at h
  · next j =>
    split at h
    · next hj =>
      split at h
      · next hcosts hrhs =>
        cases h
        exact ⟨j, rfl, hj, hcosts, hrhs⟩
      · exact nomatch h
    · exact nomatch h
  · exact nomatch h

/-- What the program of a stage is assembled from. -/
theorem assemble_eq_ok [Scalar α] {p : LinearStage α} {s : Situation α} {x : Point α} {k : Int}
    {a : Assembly α} :
    p.assemble s x k = .ok a
      ↔ x.length = p.stateCount ∧ ∃ costs rhs, p.scenario s.scenarios k = .ok (costs, rhs) ∧
          a = p.assembly s.setting s.cuts x costs rhs := by
  unfold assemble
  rw [bind_eq_ok]
  constructor
  · rintro ⟨_, hstate, h⟩
    obtain ⟨⟨costs, rhs⟩, hscenario, h⟩ := bind_eq_ok.mp h
    exact ⟨Int.natCast_inj.mp (StageProblem.checkState_eq_ok.mp hstate), costs, rhs, hscenario,
      (pure_eq_ok.mp h).symm⟩
  · rintro ⟨hx, costs, rhs, hscenario, rfl⟩
    refine ⟨(), StageProblem.checkState_eq_ok.mpr (Int.natCast_inj.mpr hx), ?_⟩
    rw [hscenario]
    rfl

/-! ## Tables -/

theorem scenarioRows_spec {name : String} {width scenarios : Nat} {t : Tensor α}
    {rows : List (List α)} (ht : t.IsRectangular)
    (h : scenarioRows name width scenarios t = .ok rows) :
    rows.length = scenarios ∧ ∀ row ∈ rows, row.length = width := by
  obtain ⟨shape, entries⟩ := t
  match shape with
  | [] => simp [scenarioRows] at h
  | [n] =>
    by_cases hn : n = width
    · subst hn
      have hrows : List.replicate scenarios entries = rows := by simpa [scenarioRows] using h
      have hentries : entries.length = n := by simpa [Tensor.IsRectangular] using ht
      subst hrows
      simp [hentries]
    · simp [scenarioRows, hn] at h
  | [n, w] =>
    by_cases hn : n = scenarios ∧ w = width
    · obtain ⟨rfl, rfl⟩ := hn
      have hrows : Tensor.chunks w n entries = rows := by
        simpa [scenarioRows, Tensor.rows] using h
      subst hrows
      refine ⟨Tensor.length_chunks _ _ _, fun row hrow => ?_⟩
      exact Tensor.length_of_mem_chunks (by simpa [Tensor.IsRectangular] using ht) hrow
    · simp [scenarioRows, hn] at h
  | _ :: _ :: _ :: _ => simp [scenarioRows] at h

theorem atLeast2_rectangular {t : Tensor α} (ht : t.IsRectangular) :
    t.atLeast2.IsRectangular := by
  obtain ⟨shape, entries⟩ := t
  match shape with
  | [] => simpa [Tensor.IsRectangular, Tensor.atLeast2] using ht
  | [n] => simpa [Tensor.IsRectangular, Tensor.atLeast2] using ht
  | _ :: _ :: _ => exact ht

theorem rows_spec {t : Tensor α} {m n : Nat} (ht : t.IsRectangular) (hshape : t.shape = [m, n]) :
    t.rows.length = m ∧ ∀ row ∈ t.rows, row.length = n := by
  obtain ⟨shape, entries⟩ := t
  subst hshape
  refine ⟨Tensor.length_chunks _ _ _, fun row hrow => ?_⟩
  exact Tensor.length_of_mem_chunks (by simpa [Tensor.IsRectangular] using ht) hrow

variable [Scalar α]

theorem inflowRows_spec {m n : Nat} {given : Option (Tensor α)} {rows : List (List α)}
    (hgiven : ∀ t, given = some t → t.IsRectangular) (h : inflowRows m n given = .ok rows) :
    rows.length = m ∧ ∀ row ∈ rows, row.length = n := by
  cases given with
  | none =>
    have hrows : List.replicate m (List.replicate n 0) = rows := by simpa [inflowRows] using h
    subst hrows
    simp
  | some t =>
    by_cases hshape : t.atLeast2.shape = [m, n]
    · have hrows : t.atLeast2.rows = rows := by simpa [inflowRows, hshape] using h
      subst hrows
      exact rows_spec (atLeast2_rectangular (hgiven t rfl)) hshape
    · simp [inflowRows, hshape] at h

/-! ## Construction -/

theorem ofStatement_isRegular {st : Statement α} {p : LinearStage α} (hst : st.IsRectangular)
    (h : ofStatement st = .ok p) : p.IsRegular := by
  unfold ofStatement at h
  simp only [bind_eq_ok] at h
  obtain ⟨matrix, hmatrix, h⟩ := h
  split at h
  case h_2 => exact nomatch (throw_bind _ _).symm.trans h
  case h_1 m n hshape =>
    simp only [bind_eq_ok, pure_eq_ok] at h
    obtain ⟨_, rfl, stateOut, -, costs, hcosts, rhs, hrhs, probabilities, -, h⟩ := h
    split at h
    case h_2 => exact nomatch (throw_bind _ _).symm.trans h
    case h_1 scenarios hscenarios =>
      simp only [bind_eq_ok, guard_eq_ok, pure_eq_ok, not_not] at h
      obtain ⟨_, rfl, costRows, hcostRows, rhsRows, hrhsRows, given, hgiven, inflow, hinflow,
        signs, -, hsigns, hplaces, lower, -, upper, -, hlimits, names, -, hnames, params, -,
        rfl⟩ := h
      obtain ⟨hrows, hrow⟩ := rows_spec (atLeast2_rectangular (hst.matrix _ hmatrix)) hshape
      obtain ⟨hcosts, hcost⟩ := scenarioRows_spec (hst.costs _ hcosts) hcostRows
      obtain ⟨hrhs, hrhsRow⟩ := scenarioRows_spec (hst.rhs _ hrhs) hrhsRows
      obtain ⟨hinflow, hinflowRow⟩ :=
        inflowRows_spec (fun t ht => hst.inflow t (by rw [hgiven, ht])) hinflow
      have hsize : Tensor.size (probabilities.getD (Tensor.vector (List.replicate
          (Nat.max (scenariosOf costs) (scenariosOf rhs))
          (1 / Scalar.ofNat (Nat.max (scenariosOf costs) (scenariosOf rhs)))))) = scenarios := by
        rw [Tensor.size, hscenarios]
        rfl
      exact
        { rows := hrow
          inflow := hinflow.trans hrows.symm
          inflowRows := by simpa [stateCount] using hinflowRow
          signs := hsigns.trans hrows.symm
          places := by
            intro j hj
            obtain ⟨k, hk, rfl⟩ := List.mem_map.mp hj
            have hrange : ¬(k < 0 ∨ (n : Int) ≤ k) := fun h =>
              hplaces (List.any_eq_true.mpr ⟨k, hk, decide_eq_true h⟩)
            show k.toNat < n
            omega
          ranges := by simp [hlimits]
          names := hnames
          costs := hcosts.trans hsize.symm
          costRows := hcost
          rhs := hrhs.trans hsize.symm
          rhsRows := by simpa [hrows] using hrhsRow }

end LinearStage

end Multistage
