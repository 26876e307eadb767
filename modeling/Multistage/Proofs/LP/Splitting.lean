/-
Multistage.Proofs.LP.Splitting — one-sided rows say what two-sided rows say.

A row with a sign has one side: it is an equation, or it has an upper or a
lower limit.  So the split form of a program of such rows admits the points
that the program admits, and of the recovered duals those of leading equations
are the leading marginals.
-/
import Multistage.Proofs.Except
import Multistage.Proofs.LP.Duality
import Multistage.Proofs.LP.Feasible

namespace Multistage.LP

/-! ## Splitting rows -/

variable {α : Type}

theorem mem_sides {side? : Range α → Option α} {rows : List (List α)} {ranges : List (Range α)}
    {c : Constraint α} :
    c ∈ sides side? rows ranges ↔ ∃ r, (c.row, r) ∈ rows.zip ranges ∧ side? r = some c.rhs := by
  unfold sides
  rw [List.mem_filterMap]
  constructor
  · rintro ⟨⟨row, r⟩, hmem, h⟩
    obtain ⟨b, hb, rfl⟩ := Option.map_eq_some_iff.mp h
    exact ⟨r, hmem, hb⟩
  · rintro ⟨r, hmem, h⟩
    exact ⟨(c.row, r), hmem, by dsimp only; rw [h]; rfl⟩

theorem map_row_zipWith {rows : List (List α)} {rhs : List α} (h : rows.length = rhs.length) :
    (List.zipWith Constraint.mk rows rhs).map Constraint.row = rows := by
  refine List.ext_getElem (by simp [h]) fun i h₁ h₂ => ?_
  simp

theorem map_rhs_zipWith {rows : List (List α)} {rhs : List α} (h : rows.length = rhs.length) :
    (List.zipWith Constraint.mk rows rhs).map Constraint.rhs = rhs := by
  refine List.ext_getElem (by simp [h]) fun i h₁ h₂ => ?_
  simp

theorem sides_append {side? : Range α → Option α} {rows rows' : List (List α)}
    {ranges ranges' : List (Range α)} (h : rows.length = ranges.length) :
    sides side? (rows ++ rows') (ranges ++ ranges')
      = sides side? rows ranges ++ sides side? rows' ranges' := by
  unfold sides
  rw [List.zip_append h, List.filterMap_append]

variable {K : Type} [LinearOrder K]

/-- The limits of a column, as solvers take them. -/
theorem between_iff_contains {r : Range K} (hlower : r.lower ≠ .posInf) (hupper : r.upper ≠ .negInf)
    (a : K) : Between (r.lower.value?, r.upper.value?) a ↔ r.Contains a := by
  obtain ⟨lower, upper⟩ := r
  cases lower <;> cases upper <;>
    simp_all [Between, Range.Contains, Limit.value?, Limit.IsLower, Limit.IsUpper]

variable [Field K]

theorem dot_negate (c : Constraint K) (w : List K) :
    Scalar.dot c.negate.row w = -Scalar.dot c.row w := by
  have hmap : c.negate.row = c.row.map (-1 * ·) := by simp [Constraint.negate]
  rw [hmap, Scalar.dot_map_mul, neg_one_mul]

theorem sides_eq_nil {side? : Range K → Option K}
    (hside : ∀ b : K, side? (RowSense.equal.range b) = none) (rows : List (List K))
    (rhs : List K) : sides side? rows (rhs.map RowSense.equal.range) = [] := by
  unfold sides
  rw [List.filterMap_eq_nil_iff]
  rintro ⟨row, r⟩ hmem
  obtain ⟨b, -, rfl⟩ := List.mem_map.mp (List.of_mem_zip hmem).2
  simp [hside]

/-- What the sides of a range ask of a value. -/
def Range.SidesHold (r : Range K) (v : K) : Prop :=
  (∀ b, r.equation? = some b → v = b) ∧ (∀ b, r.upperSide? = some b → v ≤ b) ∧
    ∀ b, r.lowerSide? = some b → b ≤ v

section Ordered

variable [IsStrictOrderedRing K]

theorem equation?_range (s : RowSense) (b : K) :
    (s.range b).equation? = match s with
      | .equal => some b
      | _ => none := by
  cases s with
  | atMost => rfl
  | atLeast => rfl
  | equal =>
    have htolerance : (0 : K) < equationTolerance := by
      show (0 : K) < 1 / ((1000000000000 : Nat) : K)
      positivity
    simp [RowSense.range, Range.equation?, Scalar.magnitude, htolerance]

theorem sidesHold_range (s : RowSense) (b v : K) :
    (s.range b).SidesHold v ↔ (s.range b).Contains v := by
  rw [RowSense.range_contains, Range.SidesHold, Range.upperSide?, Range.lowerSide?,
    equation?_range]
  cases s with
  | atMost => simp [RowSense.range, RowSense.Holds, Limit.value?]
  | atLeast => simp [RowSense.range, RowSense.Holds, Limit.value?]
  | equal =>
    simp only [RowSense.Holds]
    exact ⟨fun h => h.1 b rfl,
      fun h => ⟨fun c hc => h.trans (Option.some.inj hc), by simp, by simp⟩⟩

/-- Rows with one number for a range are equations. -/
theorem sides_equation (rows : List (List K)) (rhs : List K) :
    sides Range.equation? rows (rhs.map RowSense.equal.range)
      = List.zipWith Constraint.mk rows rhs := by
  induction rows generalizing rhs with
  | nil => rfl
  | cons row rows ih =>
    obtain _ | ⟨b, rhs⟩ := rhs
    · rfl
    have hb : (RowSense.equal.range b).equation? = some b := equation?_range .equal b
    have hrest := ih rhs
    simp only [sides] at hrest ⊢
    simp [hb, hrest]

theorem equal_upperSide? (b : K) : (RowSense.equal.range b).upperSide? = none := by
  rw [Range.upperSide?, equation?_range]

theorem equal_lowerSide? (b : K) : (RowSense.equal.range b).lowerSide? = none := by
  rw [Range.lowerSide?, equation?_range]

/-- The split form of a program admits the points at which the sides of every
row and the limits of every column hold. -/
theorem Program.split_admits_iff_sidesHold (p : Program K) (w : List K) :
    p.split.Admits w
      ↔ (∀ e ∈ p.rows.zip p.rowRanges, e.2.SidesHold (Scalar.dot e.1 w)) ∧
        List.Forall₂ (fun r a => Between (r.lower.value?, r.upper.value?) a)
          p.columnRanges w := by
  have hrows : ((∀ c ∈ p.split.equations, Scalar.dot c.row w = c.rhs) ∧
        ∀ c ∈ p.split.inequalities, Scalar.dot c.row w ≤ c.rhs)
      ↔ ∀ e ∈ p.rows.zip p.rowRanges, e.2.SidesHold (Scalar.dot e.1 w) := by
    constructor
    · rintro ⟨heq, hineq⟩ ⟨row, r⟩ hmem
      refine ⟨fun b hb => ?_, fun b hb => ?_, fun b hb => ?_⟩
      · exact heq ⟨row, b⟩ (mem_sides.mpr ⟨r, hmem, hb⟩)
      · exact hineq ⟨row, b⟩ (List.mem_append_left _ (mem_sides.mpr ⟨r, hmem, hb⟩))
      · have hneg := hineq (Constraint.negate ⟨row, b⟩) (List.mem_append_right _
          (List.mem_map.mpr ⟨⟨row, b⟩, mem_sides.mpr ⟨r, hmem, hb⟩, rfl⟩))
        rw [dot_negate] at hneg
        exact neg_le_neg_iff.mp hneg
    · intro h
      refine ⟨fun c hc => ?_, fun c hc => ?_⟩
      · obtain ⟨r, hmem, hb⟩ := mem_sides.mp hc
        exact (h _ hmem).1 _ hb
      · rcases List.mem_append.mp hc with hc | hc
        · obtain ⟨r, hmem, hb⟩ := mem_sides.mp hc
          exact (h _ hmem).2.1 _ hb
        · obtain ⟨d, hd, rfl⟩ := List.mem_map.mp hc
          obtain ⟨r, hmem, hb⟩ := mem_sides.mp hd
          rw [dot_negate]
          exact neg_le_neg ((h _ hmem).2.2 _ hb)
  have hcols : List.Forall₂ Between p.split.columns w
      ↔ List.Forall₂ (fun r a => Between (r.lower.value?, r.upper.value?) a)
          p.columnRanges w := by
    show List.Forall₂ Between (p.columnRanges.map _) w ↔ _
    rw [List.forall₂_map_left_iff]
  rw [← hrows, ← hcols]
  exact ⟨fun h => ⟨⟨h.equations, h.inequalities⟩, h.columns⟩,
    fun h => ⟨h.1.1, h.1.2, h.2⟩⟩

/-- The split form of a program admits the points that it admits, if every
range of a row comes from a sense. -/
theorem Program.split_admits {p : Program K}
    (hranges : ∀ r ∈ p.rowRanges, ∃ (s : RowSense) (b : K), r = s.range b)
    (hcolumns : ∀ r ∈ p.columnRanges, r.lower ≠ .posInf ∧ r.upper ≠ .negInf) (w : List K) :
    p.split.Admits w
      ↔ (∀ e ∈ p.rows.zip p.rowRanges, e.2.Contains (Scalar.dot e.1 w)) ∧
        List.Forall₂ Range.Contains p.columnRanges w := by
  have hcols : List.Forall₂ (fun r a => Between (r.lower.value?, r.upper.value?) a)
      p.columnRanges w ↔ List.Forall₂ Range.Contains p.columnRanges w := by
    rw [List.forall₂_iff_zip, List.forall₂_iff_zip]
    refine and_congr_right fun _ => forall₂_congr fun r a => forall_congr' fun hmem => ?_
    obtain ⟨hlower, hupper⟩ := hcolumns r (List.of_mem_zip hmem).1
    exact between_iff_contains hlower hupper a
  have hsides : (∀ e ∈ p.rows.zip p.rowRanges, e.2.SidesHold (Scalar.dot e.1 w))
      ↔ ∀ e ∈ p.rows.zip p.rowRanges, e.2.Contains (Scalar.dot e.1 w) := by
    refine forall₂_congr fun e he => ?_
    obtain ⟨s, b, hs⟩ := hranges e.2 (List.of_mem_zip he).2
    rw [hs, sidesHold_range]
  rw [Program.split_admits_iff_sidesHold, hsides, hcols]

end Ordered

/-- Splitting keeps the lengths of rows. -/
theorem Program.length_split_rows {p : Program K} {n : Nat} (h : ∀ row ∈ p.rows, row.length = n) :
    (∀ c ∈ p.split.equations, c.row.length = n) ∧
      ∀ c ∈ p.split.inequalities, c.row.length = n := by
  have hside : ∀ (side? : Range K → Option K), ∀ c ∈ sides side? p.rows p.rowRanges,
      c.row.length = n := by
    intro side? c hc
    obtain ⟨r, hmem, -⟩ := mem_sides.mp hc
    exact h _ (List.of_mem_zip hmem).1
  refine ⟨hside _, fun c hc => ?_⟩
  rcases List.mem_append.mp hc with hc | hc
  · exact hside _ c hc
  · obtain ⟨d, hd, rfl⟩ := List.mem_map.mp hc
    simpa [Constraint.negate] using hside _ d hd

/-! ## Recovering duals -/

/-- Leading equations take the leading marginals. -/
theorem recover_take {first rest : List (Range K)} {equations : List K} (uppers lowers : List K)
    (hfirst : ∀ r ∈ first, r.equation?.isSome) (hlen : first.length ≤ equations.length) :
    (recover (first ++ rest) equations uppers lowers).take first.length
      = equations.take first.length := by
  induction first generalizing equations with
  | nil => rfl
  | cons r first ih =>
    obtain _ | ⟨m, equations⟩ := equations
    · simp at hlen
    obtain ⟨b, hb⟩ := Option.isSome_iff_exists.mp (hfirst r (by simp))
    have hrest := ih (fun q hq => hfirst q (by simp [hq])) (Nat.le_of_succ_le_succ hlen)
    have hupper : r.upperSide? = none := by rw [Range.upperSide?, hb]
    have hlower : r.lowerSide? = none := by rw [Range.lowerSide?, hb]
    simp only [List.cons_append, recover, hb, hupper, hlower, takeSide, List.length_cons,
      List.take_succ_cons, hrest]

/-! ## Rows by sign -/

/-- Ranges that signs and right-hand sides leave to rows. -/
def RangesOf (signs : List Value) (rhs : List K) (ranges : List (Range K)) : Prop :=
  List.Forall₂ (fun e r => RowSense.rangeOfSign e.1 e.2 = .ok r) (signs.zip rhs) ranges

theorem rangeOfSign_eq_ok {α : Type} [Scalar α] {sign : Value} {b : α} {r : Range α} :
    RowSense.rangeOfSign sign b = .ok r ↔ ∃ s, RowSense.parse? sign = some s ∧ r = s.range b := by
  unfold RowSense.rangeOfSign
  cases RowSense.parse? sign with
  | none => simp
  | some s => simp [eq_comm]

theorem RangesOf.exists_sense {signs : List Value} {rhs : List K} {ranges : List (Range K)}
    (h : RangesOf signs rhs ranges) : ∀ r ∈ ranges, ∃ (s : RowSense) (b : K), r = s.range b := by
  unfold RangesOf at h
  generalize signs.zip rhs = es at h
  induction h with
  | nil => exact fun r hr => (List.not_mem_nil hr).elim
  | cons he _ ih =>
    intro r hr
    rcases List.mem_cons.mp hr with rfl | hr
    · obtain ⟨s, -, hs⟩ := rangeOfSign_eq_ok.mp he
      exact ⟨s, _, hs⟩
    · exact ih r hr

/-- Rows by sign and rows by range hold alike. -/
theorem RangesOf.rowsHold_iff {signs : List Value} {rhs : List K} {ranges : List (Range K)}
    (h : RangesOf signs rhs ranges) (rows : List (List K)) (w : List K) :
    RowsHold rows signs rhs w ↔ ∀ e ∈ rows.zip ranges, e.2.Contains (Scalar.dot e.1 w) := by
  unfold RowsHold
  unfold RangesOf at h
  generalize signs.zip rhs = es at h ⊢
  induction h generalizing rows with
  | nil => simp
  | @cons e r _ _ he _ ih =>
    obtain _ | ⟨row, rows⟩ := rows
    · simp
    obtain ⟨s, hs, rfl⟩ := rangeOfSign_eq_ok.mp he
    have hhead : SignHolds e.1 (Scalar.dot row w) e.2
        ↔ (s.range e.2).Contains (Scalar.dot row w) := by
      rw [RowSense.range_contains, SignHolds, hs]
      simp
    rw [List.zip_cons_cons, List.zip_cons_cons, List.forall_mem_cons, List.forall_mem_cons, ih,
      hhead]

theorem RangesOf.append_iff {signs signs' : List Value} {rhs rhs' : List K}
    (hlen : signs.length = rhs.length) {ranges : List (Range K)} :
    RangesOf (signs ++ signs') (rhs ++ rhs') ranges
      ↔ ∃ first later, ranges = first ++ later ∧ RangesOf signs rhs first ∧
          RangesOf signs' rhs' later := by
  unfold RangesOf
  rw [List.zip_append hlen]
  constructor
  · intro h
    have h' := h.flip
    refine ⟨ranges.take (signs.zip rhs).length, ranges.drop (signs.zip rhs).length,
      (List.take_append_drop _ _).symm, ?_, ?_⟩
    · exact (List.forall₂_take_append _ _ _ h').flip
    · exact (List.forall₂_drop_append _ _ _ h').flip
  · rintro ⟨first, later, rfl, hfirst, hlater⟩
    exact List.rel_append hfirst hlater

/-- Equations are ranges of one number. -/
theorem rangesOf_equal {rhs : List K} {ranges : List (Range K)} :
    RangesOf (List.replicate rhs.length RowSense.equal.sign) rhs ranges
      ↔ ranges = rhs.map RowSense.equal.range := by
  have hone : ∀ (b : K) (r : Range K), RowSense.rangeOfSign RowSense.equal.sign b = .ok r
      ↔ r = RowSense.equal.range b := by
    intro b r
    rw [rangeOfSign_eq_ok]
    exact ⟨fun ⟨_, hs, hr⟩ => by cases hs; exact hr, fun hr => ⟨_, rfl, hr⟩⟩
  unfold RangesOf
  induction rhs generalizing ranges with
  | nil => simp
  | cons b rhs ih =>
    rw [List.length_cons, List.replicate_succ, List.zip_cons_cons, List.forall₂_cons_left_iff]
    simp only [hone, ih, List.map_cons]
    exact ⟨fun ⟨_, _, hr, hrs, h⟩ => by rw [h, hr, hrs], fun h => ⟨_, _, rfl, rfl, h⟩⟩

/-- A program that is made of rows by sign has their ranges. -/
theorem Program.ofSigned_eq_ok {costs rhs : List K} {rows : List (List K)} {signs : List Value}
    {columns : List (Range K)} {p : Program K}
    (h : Program.ofSigned costs rows signs rhs columns = .ok p) :
    ∃ ranges, RangesOf signs rhs ranges ∧ p = ⟨costs, rows, ranges, columns⟩ := by
  unfold Program.ofSigned at h
  obtain ⟨ranges, hranges, h⟩ := bind_eq_ok.mp h
  refine ⟨ranges, ?_, (pure_eq_ok.mp h).symm⟩
  simp only [RowForm.ranges] at hranges
  split at hranges
  · exact mapM_eq_ok.mp hranges
  · exact nomatch hranges

end Multistage.LP
