/-
Multistage.Proofs.Stage.Scatter — what a scattered row says.

`scatter` writes entries into a row of zeros, one after another.  A place that
is written twice keeps the last entry only, so of several states that are one
and the same decision all but the last lose their coefficients.  `keepLast` is
the list of entries that survive.  Nothing is lost at a point if every decision
that is listed twice is zero there, and otherwise some coefficients show a
difference.
-/
import Multistage.Proofs.Exact
import Multistage.Stage.Linear

namespace Multistage.LinearStage

variable {K : Type} [Field K]

/-! ## Cleared places -/

/-- The row with zeros at some places. -/
def clear (places : List Nat) (row : List K) : List K :=
  row.mapIdx fun i a => if i ∈ places then 0 else a

@[simp] theorem length_clear (places : List Nat) (row : List K) :
    (clear places row).length = row.length := by
  simp [clear]

theorem clear_nil (row : List K) : clear [] row = row := by
  refine List.ext_getElem (by simp) fun i h₁ h₂ => ?_
  simp [clear]

theorem clear_replicate (places : List Nat) (n : Nat) :
    clear places (List.replicate n (0 : K)) = List.replicate n 0 := by
  refine List.ext_getElem (by simp) fun i h₁ h₂ => ?_
  simp [clear]

theorem clear_set_of_mem {places : List Nat} {j : Nat} (hj : j ∈ places) (row : List K) (a : K) :
    clear places (row.set j a) = clear (j :: places) row := by
  refine List.ext_getElem (by simp) fun i h₁ h₂ => ?_
  by_cases hij : j = i
  · subst hij
    simp [clear, hj]
  · simp [clear, List.getElem_set_ne hij, Ne.symm hij]

theorem clear_set_of_notMem {places : List Nat} {j : Nat} (hj : j ∉ places) (row : List K)
    (a : K) : clear places (row.set j a) = (clear (j :: places) row).set j a := by
  refine List.ext_getElem (by simp) fun i h₁ h₂ => ?_
  by_cases hij : j = i
  · subst hij
    simp [clear, hj]
  · simp [clear, List.getElem_set_ne hij, Ne.symm hij]

theorem getD_clear_head (j : Nat) (places : List Nat) (row : List K) :
    (clear (j :: places) row).getD j 0 = 0 := by
  rw [List.getD_eq_getElem?_getD]
  by_cases hj : j < row.length
  · simp [clear, List.getElem?_eq_getElem hj]
  · simp [clear, List.getElem?_eq_none (not_lt.mp hj)]

/-! ## The entries that stay -/

/-- The entries of places that do not come again; zero for the others. -/
def keepLast : List Nat → List K → List K
  | j :: places, a :: entries => (if j ∈ places then 0 else a) :: keepLast places entries
  | _, _ => []

theorem keepLast_zeros (places : List Nat) :
    keepLast places (List.replicate places.length (0 : K)) = List.replicate places.length 0 := by
  induction places with
  | nil => rfl
  | cons j places ih => simp [keepLast, List.replicate_succ, ih]

theorem keepLast_map_mul (c : K) (places : List Nat) (entries : List K) :
    keepLast places (entries.map (c * ·)) = (keepLast places entries).map (c * ·) := by
  induction places generalizing entries with
  | nil => rfl
  | cons j places ih =>
    cases entries with
    | nil => rfl
    | cons a entries =>
      rw [List.map_cons, keepLast, keepLast, List.map_cons, ih]
      split <;> simp

/-! ## Scattered rows -/

variable [LinearOrder K]

theorem dot_set {row : List K} {j : Nat} (hj : j < row.length) (a : K) (y : List K) :
    Scalar.dot (row.set j a) y = Scalar.dot row y + (a - row.getD j 0) * y.getD j 0 := by
  induction row generalizing j y with
  | nil => simp at hj
  | cons b row ih =>
    cases y with
    | nil => simp
    | cons c y =>
      cases j with
      | zero =>
        simp only [List.set_cons_zero, Scalar.dot_cons_cons, List.getD_cons_zero]
        ring
      | succ j =>
        simp only [List.set_cons_succ, Scalar.dot_cons_cons, List.getD_cons_succ]
        rw [ih (by simpa using hj)]
        ring

theorem dot_foldl_set {places : List Nat} {entries row : List K} (y : List K)
    (hlen : entries.length = places.length) (hplaces : ∀ j ∈ places, j < row.length) :
    Scalar.dot ((places.zip entries).foldl (fun row (j, a) => row.set j a) row) y
      = Scalar.dot (clear places row) y
        + Scalar.dot (keepLast places entries) (places.map (y.getD · 0)) := by
  induction places generalizing entries row with
  | nil => simp [keepLast, clear_nil]
  | cons j places ih =>
    cases entries with
    | nil => simp at hlen
    | cons a entries =>
      have hj : j < row.length := hplaces j (by simp)
      rw [List.zip_cons_cons, List.foldl_cons,
        ih (by simpa using hlen) (fun i hi => by simpa using hplaces i (by simp [hi])),
        keepLast, List.map_cons, Scalar.dot_cons_cons]
      by_cases hmem : j ∈ places
      · rw [clear_set_of_mem hmem, if_pos hmem, zero_mul, zero_add]
      · rw [clear_set_of_notMem hmem, if_neg hmem, dot_set (by simpa using hj),
          getD_clear_head]
        ring

/-- A scattered row pairs the entries that stay with what stands in their
places. -/
theorem dot_scatter {width : Nat} {places : List Nat} {entries : List K} (y : List K)
    (hlen : entries.length = places.length) (hplaces : ∀ j ∈ places, j < width) :
    Scalar.dot (scatter width places entries) y
      = Scalar.dot (keepLast places entries) (places.map (y.getD · 0)) := by
  rw [scatter, dot_foldl_set y hlen (by simpa using hplaces), clear_replicate,
    Scalar.dot_replicate_zero, zero_add]

@[simp] theorem length_scatter (width : Nat) (places : List Nat) (entries : List K) :
    (scatter width places entries).length = width := by
  have hfold : ∀ (es : List (Nat × K)) (row : List K),
      (es.foldl (fun row (j, a) => row.set j a) row).length = row.length := by
    intro es
    induction es with
    | nil => exact fun _ => rfl
    | cons e es ih => exact fun row => by rw [List.foldl_cons, ih, List.length_set]
  rw [scatter, hfold, List.length_replicate]

/-! ## Places that come twice -/

theorem dot_keepLast {places : List Nat} {entries : List K} {f : Nat → K}
    (h : ∀ j, 1 < places.count j → f j = 0) :
    Scalar.dot (keepLast places entries) (places.map f) = Scalar.dot entries (places.map f) := by
  induction places generalizing entries with
  | nil => simp
  | cons j places ih =>
    cases entries with
    | nil => rfl
    | cons a entries =>
      have htail : ∀ i, 1 < places.count i → f i = 0 := fun i hi =>
        h i (lt_of_lt_of_le hi (List.count_le_count_cons))
      rw [keepLast, List.map_cons, Scalar.dot_cons_cons, Scalar.dot_cons_cons, ih htail]
      by_cases hj : j ∈ places
      · have hzero : f j = 0 := h j (by
          rw [List.count_cons_self]
          have := List.count_pos_iff.mpr hj
          omega)
        rw [hzero, mul_zero, mul_zero]
      · rw [if_neg hj]

/-- An entry is lost where its place comes again, unless it meets a zero. -/
theorem eq_zero_of_dot_keepLast {places : List Nat} {f : Nat → K}
    (h : ∀ entries : List K, entries.length = places.length →
      Scalar.dot (keepLast places entries) (places.map f) = Scalar.dot entries (places.map f))
    {j : Nat} (hj : 1 < places.count j) : f j = 0 := by
  induction places with
  | nil => simp at hj
  | cons i places ih =>
    by_cases hij : i = j
    · -- the entry of the first occurrence is overwritten
      subst hij
      have hmem : i ∈ places := by
        rw [List.count_cons_self] at hj
        exact List.count_pos_iff.mp (by omega)
      have := h (1 :: List.replicate places.length 0) (by simp)
      rw [keepLast, if_pos hmem, List.map_cons, Scalar.dot_cons_cons, Scalar.dot_cons_cons,
        keepLast_zeros, Scalar.dot_replicate_zero] at this
      simpa using this.symm
    · refine ih (fun entries hlen => ?_) (by rwa [List.count_cons_of_ne hij] at hj)
      have := h (0 :: entries) (by simpa using hlen)
      rw [keepLast, List.map_cons, Scalar.dot_cons_cons, Scalar.dot_cons_cons] at this
      simpa using this

end Multistage.LinearStage
