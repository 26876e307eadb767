/-
Multistage.Proofs.LP.Posed — the programs that callers pose.

A caller states limits of columns and rows, and any of them may be infinite.
`Posed.Meets` takes them at their word.  The split program that a solver is
called with describes the points that meet them, except where a lower limit is
plus infinity or an upper limit minus infinity (`Posed.meets_iff`).  Such a
limit is met by no point; the split program leaves it out, and a solver that
does nothing wrong may report an optimum (`Posed.split_describes`).
-/
import Multistage.LP.Solve
import Multistage.Proofs.LP.Limits
import Mathlib.Tactic.NormNum

namespace Multistage

open Extended (real)

variable {K : Type}

/-- The limit as an element of the field with infinities. -/
def Limit.extended : Limit K → Extended K
  | finite a => real a
  | negInf => .negInf
  | posInf => .posInf

namespace LP

/-! ## Posing programs -/

/-- The ways to limit the rows of a program, with limits that may be infinite:
a sign and a right-hand side per row, limits on either side, one value per
row, or nothing, which stands for the value zero. -/
inductive RowLimits (K : Type) where
  | signed (signs : List Value) (rhs : List (Limit K))
  | sided (lower upper : Option (List (Limit K)))
  | equal (rhs : List (Limit K))
  | zero

/-- A program as a caller poses it. -/
structure Posed (K : Type) where
  costs : List K
  rows : List (List K)
  lower : List (Limit K)
  upper : List (Limit K)
  limits : RowLimits K

section Meaning

variable [LinearOrder K]

/-- Whether the value of a row stands in a sense to a limit. -/
def RowSense.Relates (s : RowSense) (value : K) (rhs : Limit K) : Prop :=
  match s with
  | atMost => rhs.IsUpper value
  | atLeast => rhs.IsLower value
  | equal => rhs = .finite value

/-- Whether the values of the rows meet their limits. -/
def RowLimits.Meets [Zero K] : RowLimits K → List K → Prop
  | signed signs rhs, values =>
    List.Forall₂ (fun e v => ∃ s, RowSense.parse? e.1 = some s ∧ s.Relates v e.2)
      (signs.zip rhs) values
  | sided lower upper, values =>
    (∀ ls, lower = some ls → List.Forall₂ Limit.IsLower ls values) ∧
      ∀ us, upper = some us → List.Forall₂ Limit.IsUpper us values
  | equal rhs, values => List.Forall₂ (fun b v => RowSense.equal.Relates v b) rhs values
  | zero, values => ∀ v ∈ values, v = 0

variable [Field K]

/-- Whether a point meets all limits of a program as it is posed. -/
structure Posed.Meets (g : Posed K) (x : List K) : Prop where
  rows : g.limits.Meets (g.rows.map (Scalar.dot · x))
  lower : List.Forall₂ Limit.IsLower g.lower x
  upper : List.Forall₂ Limit.IsUpper g.upper x

/-- The form in which rows with these limits arrive. -/
def RowLimits.form : RowLimits K → RowForm (Extended K)
  | signed signs rhs => .signed signs (rhs.map Limit.extended)
  | sided lower upper =>
    .ranged (lower.map (List.map fun l => Scalar.limit l.extended))
      (upper.map (List.map fun u => Scalar.limit u.extended))
  | equal rhs => .equal (rhs.map Limit.extended)
  | zero => .zero

/-- The program that is posed, if its parts fit. -/
def Posed.program (g : Posed K) : Except Failure (Program (Extended K)) := do
  let columns ← columnRanges g.costs.length (g.lower.map fun l => Scalar.limit l.extended)
    (g.upper.map fun u => Scalar.limit u.extended)
  let ranges ← g.limits.form.ranges g.rows.length
  return ⟨g.costs.map real, g.rows.map (List.map real), ranges, columns⟩

end Meaning

/-! ## Ranges -/

theorem pairLimits_eq_ok {α : Type} {n : Nat} {lower upper : List (Limit α)}
    {ranges : List (Range α)} :
    RowForm.pairLimits n lower upper = .ok ranges
      ↔ (lower.length = n ∧ upper.length = n) ∧ List.zipWith Range.mk lower upper = ranges := by
  unfold RowForm.pairLimits
  split <;> simp [*]

theorem columnRanges_eq_ok {α : Type} {n : Nat} {lower upper : List (Limit α)}
    {ranges : List (Range α)} :
    columnRanges n lower upper = .ok ranges
      ↔ (lower.length = n ∧ upper.length = n) ∧ List.zipWith Range.mk lower upper = ranges := by
  unfold columnRanges
  split <;> simp [*]

/-- There are as many ranges as rows. -/
theorem RowForm.length_ranges {α : Type} [Scalar α] {form : RowForm α} {n : Nat}
    {rs : List (Range α)} (h : form.ranges n = .ok rs) : rs.length = n := by
  have hpair : ∀ {lower upper}, pairLimits n lower upper = .ok rs → rs.length = n := by
    intro lower upper hpair
    obtain ⟨⟨hlower, hupper⟩, rfl⟩ := pairLimits_eq_ok.mp hpair
    rw [List.length_zipWith, hlower, hupper, Nat.min_self]
  cases form with
  | signed signs rhs =>
    simp only [ranges] at h
    split at h
    · rename_i hlen
      rw [← (mapM_eq_ok.mp h).length_eq, List.length_zip, hlen.1, hlen.2, Nat.min_self]
    · cases h
  | ranged lower upper => exact hpair h
  | equal rhs => exact hpair h
  | zero => exact hpair h

theorem zipWith_mk_map {α β : Type} (f : α → β) (lower upper : List (Limit α)) :
    List.zipWith Range.mk (lower.map (Limit.map f)) (upper.map (Limit.map f))
      = (List.zipWith Range.mk lower upper).map (Range.map f) := by
  rw [List.zipWith_map, List.map_zipWith]
  rfl

/-- A limit that is not given limits nothing. -/
theorem forall₂_getD_iff {α β : Type} {R : α → β → Prop} {absent : α}
    (habsent : ∀ v, R absent v) (limits : Option (List α)) (values : List β) :
    List.Forall₂ R (limits.getD (List.replicate values.length absent)) values
      ↔ ∀ ls, limits = some ls → List.Forall₂ R ls values := by
  cases limits with
  | some ls => simp
  | none =>
    refine iff_of_true ?_ fun ls h => nomatch h
    induction values with
    | nil => exact .nil
    | cons v values ih => exact .cons (habsent v) ih

section Ordered

variable [LinearOrder K]

/-- The range that a sense and a limit leave to a row. -/
def RowSense.limits {α : Type} (s : RowSense) (b : Limit α) : Range α :=
  match s with
  | atMost => ⟨.negInf, b⟩
  | atLeast => ⟨b, .posInf⟩
  | equal => ⟨b, b⟩

theorem RowSense.relates_iff_contains (s : RowSense) (v : K) (b : Limit K) :
    s.Relates v b ↔ (s.limits b).Contains v := by
  cases s with
  | atMost => exact (and_iff_right trivial).symm
  | atLeast => exact (and_iff_left trivial).symm
  | equal =>
    show b = .finite v ↔ b.IsLower v ∧ b.IsUpper v
    cases b with
    | finite a =>
      simp only [Limit.finite.injEq, Limit.IsLower, Limit.IsUpper]
      exact ⟨fun h => ⟨h.le, h.ge⟩, fun h => le_antisymm h.1 h.2⟩
    | negInf => simp [Limit.IsUpper]
    | posInf => simp [Limit.IsLower]

/-- Lower and upper limits are met where the ranges between them are. -/
theorem forall₂_contains_zipWith {lower upper : List (Limit K)}
    (h : lower.length = upper.length) (values : List K) :
    List.Forall₂ Range.Contains (List.zipWith Range.mk lower upper) values
      ↔ List.Forall₂ Limit.IsLower lower values ∧ List.Forall₂ Limit.IsUpper upper values := by
  induction lower generalizing upper values with
  | nil =>
    rw [List.length_eq_zero_iff.mp h.symm]
    simp
  | cons l lower ih =>
    obtain _ | ⟨u, upper⟩ := upper
    · simp at h
    obtain _ | ⟨v, values⟩ := values
    · simp
    rw [List.zipWith_cons_cons, List.forall₂_cons, List.forall₂_cons, List.forall₂_cons,
      ih (Nat.succ.inj h)]
    exact and_and_and_comm

/-- Ranges contain values where none of them is void and all finite limits
hold. -/
theorem forall₂_contains_iff (ranges : List (Range K)) (values : List K) :
    List.Forall₂ Range.Contains ranges values
      ↔ (∀ r ∈ ranges, ¬ r.Void) ∧ List.Forall₂ (fun r v => Between r.bounds v) ranges values := by
  induction ranges generalizing values with
  | nil => simp
  | cons r ranges ih =>
    obtain _ | ⟨v, values⟩ := values
    · simp
    rw [List.forall₂_cons, List.forall₂_cons, List.forall_mem_cons, ih, Range.contains_iff]
    exact and_and_and_comm

theorem exists_ranges_equal {n : Nat} {rhs : List (Limit K)} {ranges : List (Range (Extended K))}
    (h : RowForm.pairLimits n (rhs.map (Limit.map real)) (rhs.map (Limit.map real))
      = .ok ranges) :
    ∃ rs : List (Range K), ranges = rs.map (Range.map real) ∧ ∀ values,
      List.Forall₂ (fun b v => RowSense.equal.Relates v b) rhs values
        ↔ List.Forall₂ Range.Contains rs values := by
  obtain ⟨-, rfl⟩ := pairLimits_eq_ok.mp h
  refine ⟨_, zipWith_mk_map real rhs rhs, fun values => ?_⟩
  rw [List.zipWith_self, List.forall₂_map_left_iff]
  simp only [RowSense.relates_iff_contains, RowSense.limits]

/-- Values are zero where they are equal to as many zeros. -/
theorem forall_zero_iff [Zero K] (values : List K) :
    (∀ v ∈ values, v = 0) ↔
      List.Forall₂ (fun b v => RowSense.equal.Relates v b)
        (List.replicate values.length (.finite 0)) values := by
  induction values with
  | nil => simp
  | cons v values ih =>
    rw [List.forall_mem_cons, List.length_cons, List.replicate_succ, List.forall₂_cons, ih]
    simp [RowSense.Relates, eq_comm]

variable [Field K]

@[simp] theorem limit_extended (l : Limit K) : Scalar.limit l.extended = l.map real := by
  cases l <;> rfl

theorem RowSense.range_extended (s : RowSense) (b : Limit K) :
    s.range b.extended = (s.limits b).map real := by
  cases s <;> simp [range, limits, Range.map, Limit.map]

theorem exists_ranges_signed {es : List (Value × Limit K)} {ranges : List (Range (Extended K))}
    (h : List.Forall₂ (fun e r => RowSense.rangeOfSign e.1 e.2.extended = .ok r) es ranges) :
    ∃ rs : List (Range K), ranges = rs.map (Range.map real) ∧ ∀ values,
      List.Forall₂ (fun e v => ∃ s, RowSense.parse? e.1 = some s ∧ s.Relates v e.2) es values
        ↔ List.Forall₂ Range.Contains rs values := by
  induction h with
  | nil => exact ⟨[], rfl, fun values => by simp⟩
  | @cons e _ _ _ he _ ih =>
    obtain ⟨s, hs, rfl⟩ := rangeOfSign_eq_ok.mp he
    obtain ⟨rs, rfl, hrest⟩ := ih
    refine ⟨s.limits e.2 :: rs, by rw [List.map_cons, s.range_extended], fun values => ?_⟩
    obtain _ | ⟨v, values⟩ := values
    · simp
    rw [List.forall₂_cons, List.forall₂_cons, hrest, ← s.relates_iff_contains, hs]
    simp

theorem getD_map_limit (limits : Option (List (Limit K))) (n : Nat) (absent : Limit K) :
    (limits.map (List.map fun l => Scalar.limit l.extended)).getD
        (List.replicate n (absent.map real))
      = (limits.getD (List.replicate n absent)).map (Limit.map real) := by
  cases limits <;> simp

theorem exists_ranges_sided {lower upper : Option (List (Limit K))} {n : Nat}
    {ranges : List (Range (Extended K))}
    (h : (RowLimits.sided lower upper).form.ranges n = .ok ranges) :
    ∃ rs : List (Range K), ranges = rs.map (Range.map real) ∧ ∀ values, values.length = n →
      ((RowLimits.sided lower upper).Meets values ↔ List.Forall₂ Range.Contains rs values) := by
  have hlower := getD_map_limit lower n .negInf
  have hupper := getD_map_limit upper n .posInf
  simp only [Limit.map] at hlower hupper
  obtain ⟨hlen, rfl⟩ := pairLimits_eq_ok.mp h
  rw [hlower, hupper, List.length_map, List.length_map] at hlen
  refine ⟨List.zipWith Range.mk (lower.getD (List.replicate n .negInf))
    (upper.getD (List.replicate n .posInf)), ?_, fun values hvalues => ?_⟩
  · rw [hlower, hupper, zipWith_mk_map]
  · rw [forall₂_contains_zipWith (hlen.1.trans hlen.2.symm), ← hvalues,
      forall₂_getD_iff fun _ => trivial, forall₂_getD_iff fun _ => trivial]
    rfl

/-- The ranges of rows contain the values that meet the limits of the rows. -/
theorem RowLimits.exists_ranges {limits : RowLimits K} {n : Nat}
    {ranges : List (Range (Extended K))} (h : limits.form.ranges n = .ok ranges) :
    ∃ rs : List (Range K), ranges = rs.map (Range.map real) ∧ ∀ values, values.length = n →
      (limits.Meets values ↔ List.Forall₂ Range.Contains rs values) := by
  cases limits with
  | signed signs rhs =>
    simp only [form, RowForm.ranges] at h
    split at h
    · rw [List.zip_map_right] at h
      obtain ⟨rs, hrs, hmeets⟩ := exists_ranges_signed
        (List.forall₂_map_left_iff.mp (mapM_eq_ok.mp h))
      exact ⟨rs, hrs, fun values _ => hmeets values⟩
    · cases h
  | sided lower upper => exact exists_ranges_sided h
  | equal rhs =>
    simp only [form, RowForm.ranges, List.map_map] at h
    have hlimits : Scalar.limit ∘ Limit.extended = Limit.map (real : K → Extended K) :=
      funext limit_extended
    rw [hlimits] at h
    obtain ⟨rs, hrs, hmeets⟩ := exists_ranges_equal h
    exact ⟨rs, hrs, fun values _ => hmeets values⟩
  | zero =>
    have hzero : List.replicate n (Limit.finite (0 : Extended K))
        = (List.replicate n (.finite (0 : K))).map (Limit.map real) := by
      rw [List.map_replicate]
      rfl
    simp only [form, RowForm.ranges, hzero] at h
    obtain ⟨rs, hrs, hmeets⟩ := exists_ranges_equal h
    refine ⟨rs, hrs, fun values hvalues => ?_⟩
    rw [← hmeets, ← hvalues]
    exact forall_zero_iff values

/-! ## Split programs -/

/-- The program that is posed, over the field. -/
theorem Posed.exists_program {g : Posed K} {p : Program (Extended K)} (hp : g.program = .ok p) :
    ∃ q : Program K, p = q.map real ∧ q.rows = g.rows ∧ q.rowRanges.length = g.rows.length ∧
      ∀ x, g.Meets x ↔
        List.Forall₂ Range.Contains q.rowRanges (g.rows.map (Scalar.dot · x)) ∧
          List.Forall₂ Range.Contains q.columnRanges x := by
  unfold Posed.program at hp
  obtain ⟨columns, hcolumns, hp⟩ := bind_eq_ok.mp hp
  obtain ⟨ranges, hranges, hp⟩ := bind_eq_ok.mp hp
  have hlen := RowForm.length_ranges hranges
  obtain ⟨rs, rfl, hmeets⟩ := RowLimits.exists_ranges hranges
  rw [List.length_map] at hlen
  simp only [limit_extended] at hcolumns
  obtain ⟨⟨hlower, hupper⟩, hzip⟩ := columnRanges_eq_ok.mp hcolumns
  have hpair : columns = (List.zipWith Range.mk g.lower g.upper).map (Range.map real) :=
    hzip.symm.trans (zipWith_mk_map real g.lower g.upper)
  rw [List.length_map] at hlower hupper
  refine ⟨⟨g.costs, g.rows, rs, List.zipWith Range.mk g.lower g.upper⟩, ?_, rfl, hlen, fun x => ?_⟩
  · rw [← pure_eq_ok.mp hp, hpair]
    rfl
  · rw [forall₂_contains_zipWith (hlower.trans hupper.symm), ← hmeets _ (List.length_map _)]
    exact ⟨fun h => ⟨h.rows, h.lower, h.upper⟩, fun h => ⟨h.1, h.2.1, h.2.2⟩⟩

/-- What holds of every row and its range, row by row. -/
theorem forall₂_values_iff {R : Range K → K → Prop} {rows : List (List K)}
    {ranges : List (Range K)} (h : ranges.length = rows.length) (x : List K) :
    List.Forall₂ R ranges (rows.map (Scalar.dot · x))
      ↔ ∀ e ∈ rows.zip ranges, R e.2 (Scalar.dot e.1 x) := by
  induction rows generalizing ranges with
  | nil =>
    rw [List.length_eq_zero_iff.mp h]
    simp
  | cons row rows ih =>
    obtain _ | ⟨r, ranges⟩ := ranges
    · simp at h
    rw [List.map_cons, List.forall₂_cons, List.zip_cons_cons, List.forall_mem_cons,
      ih (Nat.succ.inj h)]

variable [IsStrictOrderedRing K]

/-- A point meets all limits exactly if the split program describes it and no
limit is infinite on the wrong side. -/
theorem Posed.meets_iff {g : Posed K} {p : Program (Extended K)} (hp : g.program = .ok p)
    (hspread : ∀ r ∈ p.rowRanges, r.Spread) (x : List K) :
    g.Meets x ↔ ¬ p.AnyVoid ∧ p.split.Describes x := by
  obtain ⟨q, rfl, hrows, hlen, hmeets⟩ := Posed.exists_program hp
  have hvoid : q.AnyVoid ↔ (∃ r ∈ q.rowRanges, r.Void) ∨ ∃ r ∈ q.columnRanges, r.Void := by
    unfold Program.AnyVoid
    simp only [List.mem_append, or_and_right, exists_or]
  rw [hmeets, forall₂_contains_iff, forall₂_contains_iff, Program.anyVoid_map,
    Program.split_describes_iff_bounds hspread, hrows, forall₂_values_iff hlen, and_and_and_comm,
    hvoid]
  simp only [not_or, not_exists, not_and]

/-- A solver whose optima are points that the split program describes. -/
def Solver.IsFaithful (solver : Solver (Extended K)) : Prop :=
  ∀ settings s o, solver settings s = .ok (.optimal o) →
    ∃ x : List K, o.point = x.map real ∧ s.Describes x

/-- The split program describes the points at which the finite limits hold.
Those are the points that meet all limits exactly if no limit is infinite on
the wrong side, or no point is described at all.  What a faithful solver
reports as optimal holds the finite limits, and meets all limits unless one is
infinite on the wrong side. -/
theorem Posed.split_describes {g : Posed K} {p : Program (Extended K)} (hp : g.program = .ok p)
    (hspread : ∀ r ∈ p.rowRanges, r.Spread) :
    (∀ x, p.split.Describes x ↔
      (∀ e ∈ g.rows.zip p.rowRanges, Within e.2.bounds (Scalar.dot e.1 x)) ∧
        List.Forall₂ (fun r a => Within r.bounds a) p.columnRanges x) ∧
    ((∀ x, p.split.Describes x ↔ g.Meets x) ↔ (p.AnyVoid → ∀ x, ¬ p.split.Describes x)) ∧
    ∀ solver : Solver (Extended K), solver.IsFaithful → ∀ params solution,
      p.solve solver params = .ok (.optimal solution) →
        ∃ x, solution.point = x.map real ∧ p.split.Describes x ∧ (¬ p.AnyVoid → g.Meets x) := by
  refine ⟨fun x => ?_, ⟨fun hexact hvoid x hx => ?_, fun hempty x => ?_⟩, ?_⟩
  · obtain ⟨q, rfl, hrows, -, -⟩ := Posed.exists_program hp
    rw [Program.split_describes_iff_bounds hspread, hrows]
    simp only [Program.map, List.zip_map_right, List.forall_mem_map, List.forall₂_map_left_iff,
      Range.bounds_map, Prod.map_snd, Prod.map_fst, id, within_map]
  · exact ((Posed.meets_iff hp hspread x).mp ((hexact x).mp hx)).1 hvoid
  · rw [Posed.meets_iff hp hspread]
    exact ⟨fun hx => ⟨fun hvoid => hempty hvoid x hx, hx⟩, fun h => h.2⟩
  · intro solver hsolver params solution h
    obtain ⟨settings, -, h⟩ := bind_eq_ok.mp h
    obtain ⟨outcome, hrun, h⟩ := bind_eq_ok.mp h
    cases outcome with
    | optimal o =>
      cases pure_eq_ok.mp h
      obtain ⟨x, hpoint, hx⟩ := hsolver settings p.split o hrun
      exact ⟨x, hpoint, hx, fun hvoid => (Posed.meets_iff hp hspread x).mpr ⟨hvoid, hx⟩⟩
    | infeasible => cases pure_eq_ok.mp h
    | unbounded => cases pure_eq_ok.mp h
    | limited => cases pure_eq_ok.mp h
    | failed => cases pure_eq_ok.mp h

end Ordered

/-- One decision between zero and four, twice limited: between one and three,
and to at most minus infinity. -/
def neverMet : Posed ℚ where
  costs := [-1]
  rows := [[1], [1]]
  lower := [.finite 0]
  upper := [.finite 4]
  limits := .sided (some [.finite 1, .negInf]) (some [.finite 3, .negInf])

/-- The program of `neverMet`. -/
def neverMetProgram : Program (Extended ℚ) where
  costs := [real (-1)]
  rows := [[real 1], [real 1]]
  rowRanges := [⟨.finite (real 1), .finite (real 3)⟩, ⟨.negInf, .negInf⟩]
  columnRanges := [⟨.finite (real 0), .finite (real 4)⟩]

/-- No point meets a limit of minus infinity, but the split program describes
one. -/
theorem neverMet_described : neverMet.program = .ok neverMetProgram ∧
    (∀ r ∈ neverMetProgram.rowRanges, r.Spread) ∧ neverMetProgram.split.Describes [3] ∧
      (∀ x, ¬ neverMet.Meets x) ∧
        ¬ ∀ x, neverMetProgram.split.Describes x ↔ neverMet.Meets x := by
  have hprogram : neverMet.program = .ok neverMetProgram := rfl
  have hspread : ∀ r ∈ neverMetProgram.rowRanges, r.Spread := by
    intro r hr
    rcases List.mem_pair.mp hr with rfl | rfl
    · rintro l u ⟨⟩ ⟨⟩
      refine .inr ?_
      rw [Extended.real_sub, Extended.magnitude_real, tolerance_real, Extended.real_le_real,
        Scalar.magnitude_exact]
      norm_num [equationTolerance, Scalar.ofNat]
    · exact fun l u h => nomatch h
  obtain ⟨hfinite, hexact, -⟩ := Posed.split_describes hprogram hspread
  have hdescribed : neverMetProgram.split.Describes [3] := by
    refine (hfinite [3]).mpr ?_
    simp [neverMet, neverMetProgram, Within, Range.bounds, Limit.value?]
    norm_num
  have hnever : ∀ x, ¬ neverMet.Meets x := by
    rintro x ⟨⟨-, hupper⟩, -, -⟩
    have hrows := hupper _ rfl
    cases hrows with
    | cons _ hrest =>
      cases hrest with
      | cons hnone _ => exact hnone
  have hvoid : neverMetProgram.AnyVoid := ⟨⟨.negInf, .negInf⟩, by simp [neverMetProgram], .inr rfl⟩
  exact ⟨hprogram, hspread, hdescribed, hnever, fun h => hexact.mp h hvoid [3] hdescribed⟩

end LP

end Multistage
