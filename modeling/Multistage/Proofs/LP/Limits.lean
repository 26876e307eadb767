/-
Multistage.Proofs.LP.Limits — what split programs say of infinite limits.

Splitting drops every limit that is no number, on whichever side it stands.  So
a split program describes the points at which the finite limits hold
(`Program.split_admits_iff_bounds`).  Those are the points at which all limits
hold, unless some lower limit is plus infinity or some upper limit minus
infinity: no number lies in such a range, and the split program forgets it
(`Posed.meets_iff`).

Callers may state infinite right-hand sides, which an ordered field cannot
hold.  Programs are therefore assembled over the field with infinities, and
`Program.split_map` brings them back to the field.
-/
import Multistage.Proofs.Extended
import Multistage.Proofs.LP.Splitting

namespace Multistage

open Extended (real)

variable {α β : Type}

/-! ## Other scalars -/

/-- The limit with another number. -/
def Limit.map (f : α → β) : Limit α → Limit β
  | finite a => finite (f a)
  | negInf => negInf
  | posInf => posInf

theorem Limit.value?_map (f : α → β) (l : Limit α) : (l.map f).value? = l.value?.map f := by
  cases l <;> rfl

namespace LP

/-- The range with other numbers. -/
def Range.map (f : α → β) (r : Range α) : Range β := ⟨r.lower.map f, r.upper.map f⟩

/-- The constraint with other numbers. -/
def Constraint.map (f : α → β) (c : Constraint α) : Constraint β := ⟨c.row.map f, f c.rhs⟩

/-- The program with other numbers. -/
def Program.map (f : α → β) (p : Program α) : Program β where
  costs := p.costs.map f
  rows := p.rows.map (List.map f)
  rowRanges := p.rowRanges.map (Range.map f)
  columnRanges := p.columnRanges.map (Range.map f)

/-- The split program with other numbers. -/
def Split.map (f : α → β) (s : Split α) : Split β where
  costs := s.costs.map f
  equations := s.equations.map (Constraint.map f)
  inequalities := s.inequalities.map (Constraint.map f)
  columns := s.columns.map (Prod.map (Option.map f) (Option.map f))

theorem sides_map {f : α → β} {side? : Range α → Option α} {side?' : Range β → Option β}
    (hside : ∀ r, side?' (r.map f) = (side? r).map f) (rows : List (List α))
    (ranges : List (Range α)) :
    sides side?' (rows.map (List.map f)) (ranges.map (Range.map f))
      = (sides side? rows ranges).map (Constraint.map f) := by
  unfold sides
  rw [List.zip_map, List.filterMap_map, List.map_filterMap]
  refine List.filterMap_congr fun e _ => ?_
  show (side?' (e.2.map f)).map (Constraint.mk (e.1.map f)) = _
  rw [hside, Option.map_map, Option.map_map]
  rfl

/-! ## Finite limits -/

namespace Range

/-- The limits of a range that are numbers. -/
def bounds (r : Range α) : Option α × Option α := (r.lower.value?, r.upper.value?)

/-- Whether a limit is infinite on the wrong side, so that the range holds no
number. -/
def Void (r : Range α) : Prop := r.lower = .posInf ∨ r.upper = .negInf

/-- Whether the limits of a range are one or lie apart by the tolerance.
Infinite limits are one or lie apart by more than any number. -/
def Spread [Scalar α] (r : Range α) : Prop :=
  ∀ l u, r.lower = .finite l → r.upper = .finite u →
    l = u ∨ equationTolerance ≤ Scalar.magnitude (u - l)

theorem bounds_map (f : α → β) (r : Range α) :
    (r.map f).bounds = Prod.map (Option.map f) (Option.map f) r.bounds :=
  Prod.ext (Limit.value?_map f r.lower) (Limit.value?_map f r.upper)

theorem void_map (f : α → β) (r : Range α) : (r.map f).Void ↔ r.Void := by
  obtain ⟨lower, upper⟩ := r
  cases lower <;> cases upper <;> simp [Void, map, Limit.map]

end Range

/-- Whether some range of a program holds no number. -/
def Program.AnyVoid (p : Program α) : Prop := ∃ r ∈ p.rowRanges ++ p.columnRanges, r.Void

theorem Program.anyVoid_map (f : α → β) (p : Program α) : (p.map f).AnyVoid ↔ p.AnyVoid := by
  unfold Program.AnyVoid Program.map
  rw [← List.map_append]
  simp only [List.mem_map, exists_exists_and_eq_and, Range.void_map]

variable {K : Type} [LinearOrder K]

theorem Range.contains_iff (r : Range K) (a : K) :
    r.Contains a ↔ ¬ r.Void ∧ Between r.bounds a := by
  by_cases hvoid : r.Void
  · refine iff_of_false ?_ fun h => h.1 hvoid
    rintro ⟨hlower, hupper⟩
    rcases hvoid with h | h
    · rw [h] at hlower
      exact hlower
    · rw [h] at hupper
      exact hupper
  · have hsides := not_or.mp hvoid
    rw [← between_iff_contains hsides.1 hsides.2]
    exact (and_iff_right hvoid).symm

variable [Field K]

section Ordered

variable [IsStrictOrderedRing K]

/-- A row is an equation where its limits are one. -/
theorem Range.equation?_eq_some {r : Range K} (hspread : r.Spread) {b : K} :
    r.equation? = some b ↔ r.lower = .finite b ∧ r.upper = .finite b := by
  obtain ⟨lower, upper⟩ := r
  constructor
  · intro heq
    obtain ⟨u, rfl, rfl, hb⟩ : ∃ u, lower = .finite b ∧ upper = .finite u
        ∧ Scalar.magnitude (b - u) < equationTolerance := by
      unfold Range.equation? at heq
      split at heq
      · split at heq
        · cases heq
          exact ⟨_, ‹_›, ‹_›, ‹_›⟩
        · exact nomatch heq
      · exact nomatch heq
    have hone : b = u := by
      refine (hspread b u rfl rfl).resolve_right fun hapart => ?_
      rw [Scalar.magnitude_exact, abs_sub_comm, ← Scalar.magnitude_exact] at hapart
      exact absurd hb (not_lt.mpr hapart)
    exact ⟨rfl, hone ▸ rfl⟩
  · rintro ⟨rfl, rfl⟩
    exact equation?_range .equal b

/-- Limits that lie apart are two sides, and limits that are one are an
equation. -/
theorem Range.sidesHold_iff_bounds {r : Range K} (hspread : r.Spread) (v : K) :
    r.SidesHold v ↔ Between r.bounds v := by
  unfold Range.SidesHold Range.upperSide? Range.lowerSide?
  cases heq : r.equation? with
  | none =>
    simp only [reduceCtorEq, false_implies, implies_true, true_and]
    exact and_comm
  | some b =>
    obtain ⟨hlower, hupper⟩ := (Range.equation?_eq_some hspread).mp heq
    simp only [Option.some.injEq, forall_eq', reduceCtorEq, false_implies, implies_true, and_true,
      Between, Range.bounds, hlower, hupper, Limit.value?]
    exact ⟨fun h => ⟨h.ge, h.le⟩, fun h => le_antisymm h.2 h.1⟩

/-- A split program describes the points at which the finite limits hold. -/
theorem Program.split_admits_iff_bounds {q : Program K} (hspread : ∀ r ∈ q.rowRanges, r.Spread)
    (x : List K) :
    q.split.Admits x
      ↔ (∀ e ∈ q.rows.zip q.rowRanges, Between e.2.bounds (Scalar.dot e.1 x)) ∧
        List.Forall₂ (fun r a => Between r.bounds a) q.columnRanges x := by
  rw [Program.split_admits_iff_sidesHold]
  refine and_congr_left fun _ => forall₂_congr fun e he => ?_
  exact Range.sidesHold_iff_bounds (hspread _ (List.of_mem_zip he).2) _

end Ordered

/-! ## Finite numbers among infinities -/

theorem negate_real (c : Constraint K) : (c.map real).negate = c.negate.map real := by
  simp [Constraint.negate, Constraint.map, Function.comp_def]

section Ordered

variable [IsStrictOrderedRing K]

theorem tolerance_real : (equationTolerance : Extended K) = real equationTolerance := by
  have hpos : ((1000000000000 : Nat) : K) ≠ 0 := by positivity
  exact Extended.real_div hpos 1

theorem Range.spread_real {r : Range K} : (r.map real).Spread ↔ r.Spread := by
  obtain ⟨lower, upper⟩ := r
  cases lower <;> cases upper <;>
    simp [Range.Spread, Range.map, Limit.map, tolerance_real]

theorem equation?_real (r : Range K) : (r.map real).equation? = r.equation?.map real := by
  obtain ⟨lower, upper⟩ := r
  cases lower <;> cases upper <;> try rfl
  simp only [Range.equation?, Range.map, Limit.map, Extended.real_sub, Extended.magnitude_real,
    tolerance_real, Extended.real_lt_real]
  split <;> rfl

theorem upperSide?_real (r : Range K) : (r.map real).upperSide? = r.upperSide?.map real := by
  unfold Range.upperSide?
  rw [equation?_real]
  cases r.equation? with
  | none => exact Limit.value?_map real r.upper
  | some b => rfl

theorem lowerSide?_real (r : Range K) : (r.map real).lowerSide? = r.lowerSide?.map real := by
  unfold Range.lowerSide?
  rw [equation?_real]
  cases r.equation? with
  | none => exact Limit.value?_map real r.lower
  | some b => rfl

/-- Splitting computes with the numbers of the field only. -/
theorem Program.split_map (q : Program K) : (q.map real).split = q.split.map real := by
  have hcolumns : (q.columnRanges.map (Range.map real)).map Range.bounds
      = (q.columnRanges.map Range.bounds).map (Prod.map (Option.map real) (Option.map real)) := by
    rw [List.map_map, List.map_map]
    exact List.map_congr_left fun r _ => Range.bounds_map real r
  have hinequalities :
      (sides Range.upperSide? q.rows q.rowRanges ++
          (sides Range.lowerSide? q.rows q.rowRanges).map Constraint.negate).map
            (Constraint.map real)
        = (sides Range.upperSide? q.rows q.rowRanges).map (Constraint.map real) ++
          ((sides Range.lowerSide? q.rows q.rowRanges).map (Constraint.map real)).map
            Constraint.negate := by
    rw [List.map_append, List.map_map, List.map_map]
    refine congrArg _ (List.map_congr_left fun c _ => (negate_real c).symm)
  unfold Program.split Split.map
  rw [hinequalities]
  simp only [Program.map, sides_map equation?_real, sides_map upperSide?_real,
    sides_map lowerSide?_real]
  exact congrArg _ hcolumns

end Ordered

/-- Whether a number is between two limits that may be missing. -/
def Within (limits : Option (Extended K) × Option (Extended K)) (a : K) : Prop :=
  (∀ l, limits.1 = some l → l ≤ real a) ∧ ∀ u, limits.2 = some u → real a ≤ u

/-- The points at which the equations, the inequalities and the limits of the
columns of a split program hold. -/
structure Split.Describes (s : Split (Extended K)) (x : List K) : Prop where
  equations : ∀ c ∈ s.equations, Scalar.dot c.row (x.map real) = c.rhs
  inequalities : ∀ c ∈ s.inequalities, Scalar.dot c.row (x.map real) ≤ c.rhs
  columns : List.Forall₂ Within s.columns x

theorem within_map (limits : Option K × Option K) (a : K) :
    Within (limits.map (Option.map real) (Option.map real)) a ↔ Between limits a := by
  simp [Within, Between]

theorem describes_map (s : Split K) (x : List K) : (s.map real).Describes x ↔ s.Admits x := by
  have hcolumns : List.Forall₂ Within (s.map real).columns x
      ↔ List.Forall₂ Between s.columns x := by
    show List.Forall₂ Within (s.columns.map _) x ↔ _
    rw [List.forall₂_map_left_iff]
    simp only [within_map]
  have hequations : (∀ c ∈ (s.map real).equations, Scalar.dot c.row (x.map real) = c.rhs)
      ↔ ∀ c ∈ s.equations, Scalar.dot c.row x = c.rhs := by
    simp [Split.map, Constraint.map, Extended.dot_real]
  have hinequalities : (∀ c ∈ (s.map real).inequalities, Scalar.dot c.row (x.map real) ≤ c.rhs)
      ↔ ∀ c ∈ s.inequalities, Scalar.dot c.row x ≤ c.rhs := by
    simp [Split.map, Constraint.map, Extended.dot_real]
  exact ⟨fun h => ⟨hequations.mp h.1, hinequalities.mp h.2, hcolumns.mp h.3⟩,
    fun h => ⟨hequations.mpr h.1, hinequalities.mpr h.2, hcolumns.mpr h.3⟩⟩

/-- A split program describes the points at which the finite limits hold. -/
theorem Program.split_describes_iff_bounds [IsStrictOrderedRing K] {q : Program K}
    (hspread : ∀ r ∈ (q.map real).rowRanges, r.Spread) (x : List K) :
    (q.map real).split.Describes x
      ↔ (∀ e ∈ q.rows.zip q.rowRanges, Between e.2.bounds (Scalar.dot e.1 x)) ∧
        List.Forall₂ (fun r a => Between r.bounds a) q.columnRanges x := by
  have hspread' : ∀ r ∈ q.rowRanges, r.Spread := fun r hr =>
    Range.spread_real.mp (hspread _ (List.mem_map_of_mem hr))
  rw [Program.split_map, describes_map, Program.split_admits_iff_bounds hspread']

end LP

end Multistage
