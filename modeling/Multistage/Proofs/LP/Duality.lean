/-
Multistage.Proofs.LP.Duality — optima that carry their own proof.

A solver reports an optimum together with marginals.  `Optimum.IsExact` is
what its documentation promises of them: the point is feasible, the marginals
have the signs of their sides, they add up to the costs, and they give the
value a second time.  Marginals of the right signs that add up to the costs are a
solution of the dual program, and weighing each side of a feasible point with
them shows that their value is no larger than that of the point
(`Split.IsDual.value_le`).  So exact marginals are a dual optimum, and they bound
the value of every program that differs in right-hand sides of equations only
(`Optimum.IsExact.bound`).
-/
import Multistage.LP.Solve
import Multistage.Proofs.Exact

namespace Multistage.LP

variable {K : Type} [Field K]

/-! ## Adding up -/

/-- The rows of constraints, each times a marginal, added up. -/
def combine (n : Nat) : List K → List (Constraint K) → List K
  | m :: ms, c :: cs => List.zipWith (· + ·) (c.row.map (m * ·)) (combine n ms cs)
  | _, _ => List.replicate n 0

/-- The limits that are there, each times a marginal, added up. -/
def limitSum : List (Option K) → List K → K
  | some l :: ls, m :: ms => m * l + limitSum ls ms
  | none :: ls, _ :: ms => limitSum ls ms
  | _, _ => 0

theorem length_combine {n : Nat} {ms : List K} {cs : List (Constraint K)}
    (hrows : ∀ c ∈ cs, c.row.length = n) : (combine n ms cs).length = n := by
  induction ms generalizing cs with
  | nil => simp [combine]
  | cons m ms ih =>
    cases cs with
    | nil => simp [combine]
    | cons c cs =>
      rw [combine, List.length_zipWith, List.length_map, hrows c (by simp),
        ih fun d hd => hrows d (by simp [hd]), Nat.min_self]

/-- What is added up does not depend on right-hand sides. -/
theorem combine_congr {n : Nat} (ms : List K) {cs cs' : List (Constraint K)}
    (h : cs'.map Constraint.row = cs.map Constraint.row) : combine n ms cs' = combine n ms cs := by
  induction ms generalizing cs cs' with
  | nil => rfl
  | cons m ms ih =>
    obtain _ | ⟨c', cs'⟩ := cs' <;> obtain _ | ⟨c, cs⟩ := cs
    · rfl
    · cases h
    · cases h
    · obtain ⟨hrow, hrest⟩ := List.cons.inj h
      rw [combine, combine, hrow, ih hrest]

variable [LinearOrder K]

/-! ## Optima -/

/-- Whether a number is between two limits that may be missing. -/
def Between (limits : Option K × Option K) (a : K) : Prop :=
  (∀ l, limits.1 = some l → l ≤ a) ∧ ∀ u, limits.2 = some u → a ≤ u

/-- The points that satisfy equations, inequalities and limits of columns. -/
structure Split.Admits (s : Split K) (w : List K) : Prop where
  equations : ∀ c ∈ s.equations, Scalar.dot c.row w = c.rhs
  inequalities : ∀ c ∈ s.inequalities, Scalar.dot c.row w ≤ c.rhs
  columns : List.Forall₂ Between s.columns w

/-- An optimum of a program together with marginals that prove it: a feasible
point and a feasible solution of the dual program of the same value.  Marginals
of limits that are not there are zero. -/
structure Optimum.IsExact (o : Optimum K) (s : Split K) : Prop where
  feasible : s.Admits o.point
  value : o.value = Scalar.dot s.costs o.point
  equationLength : o.equationMarginals.length = s.equations.length
  inequalityLength : o.inequalityMarginals.length = s.inequalities.length
  lowerLength : o.lowerMarginals.length = s.columns.length
  upperLength : o.upperMarginals.length = s.columns.length
  inequality : ∀ m ∈ o.inequalityMarginals, m ≤ 0
  lower : ∀ m ∈ o.lowerMarginals, 0 ≤ m
  upper : ∀ m ∈ o.upperMarginals, m ≤ 0
  lowerAbsent : ∀ e ∈ s.columns.zip o.lowerMarginals, e.1.1 = none → e.2 = 0
  upperAbsent : ∀ e ∈ s.columns.zip o.upperMarginals, e.1.2 = none → e.2 = 0
  stationary : s.costs =
    List.zipWith (· + ·)
      (List.zipWith (· + ·) (combine s.columns.length o.equationMarginals s.equations)
        (combine s.columns.length o.inequalityMarginals s.inequalities))
      (List.zipWith (· + ·) o.lowerMarginals o.upperMarginals)
  dual : o.value =
    Scalar.dot o.equationMarginals (s.equations.map Constraint.rhs) +
      Scalar.dot o.inequalityMarginals (s.inequalities.map Constraint.rhs) +
      (limitSum (s.columns.map Prod.fst) o.lowerMarginals +
        limitSum (s.columns.map Prod.snd) o.upperMarginals)

/-- A solver whose optima are exact. -/
def Solver.IsExact (solver : Solver K) : Prop :=
  ∀ settings s o, solver settings s = .ok (.optimal o) → o.IsExact s

/-! ## Checking optima -/

instance (limits : Option K × Option K) (a : K) : Decidable (Between limits a) :=
  inferInstanceAs (Decidable ((∀ l ∈ limits.1, l ≤ a) ∧ ∀ u ∈ limits.2, a ≤ u))

instance (s : Split K) (w : List K) : Decidable (s.Admits w) :=
  decidable_of_iff
    ((∀ c ∈ s.equations, Scalar.dot c.row w = c.rhs) ∧
      (∀ c ∈ s.inequalities, Scalar.dot c.row w ≤ c.rhs) ∧ List.Forall₂ Between s.columns w)
    ⟨fun ⟨he, hi, hc⟩ => ⟨he, hi, hc⟩, fun ⟨he, hi, hc⟩ => ⟨he, hi, hc⟩⟩

instance (o : Optimum K) (s : Split K) : Decidable (o.IsExact s) :=
  decidable_of_iff
    (s.Admits o.point ∧ o.value = Scalar.dot s.costs o.point ∧
      (o.equationMarginals.length = s.equations.length ∧
        o.inequalityMarginals.length = s.inequalities.length ∧
        o.lowerMarginals.length = s.columns.length ∧
        o.upperMarginals.length = s.columns.length) ∧
      ((∀ m ∈ o.inequalityMarginals, m ≤ 0) ∧ (∀ m ∈ o.lowerMarginals, 0 ≤ m) ∧
        ∀ m ∈ o.upperMarginals, m ≤ 0) ∧
      ((∀ e ∈ s.columns.zip o.lowerMarginals, e.1.1 = none → e.2 = 0) ∧
        ∀ e ∈ s.columns.zip o.upperMarginals, e.1.2 = none → e.2 = 0) ∧
      s.costs =
        List.zipWith (· + ·)
          (List.zipWith (· + ·) (combine s.columns.length o.equationMarginals s.equations)
            (combine s.columns.length o.inequalityMarginals s.inequalities))
          (List.zipWith (· + ·) o.lowerMarginals o.upperMarginals) ∧
      o.value =
        Scalar.dot o.equationMarginals (s.equations.map Constraint.rhs) +
          Scalar.dot o.inequalityMarginals (s.inequalities.map Constraint.rhs) +
          (limitSum (s.columns.map Prod.fst) o.lowerMarginals +
            limitSum (s.columns.map Prod.snd) o.upperMarginals))
    ⟨fun ⟨hf, hv, ⟨h₁, h₂, h₃, h₄⟩, ⟨hi, hl, hu⟩, ⟨hl', hu'⟩, hs, hd⟩ =>
        ⟨hf, hv, h₁, h₂, h₃, h₄, hi, hl, hu, hl', hu', hs, hd⟩,
      fun ⟨hf, hv, h₁, h₂, h₃, h₄, hi, hl, hu, hl', hu', hs, hd⟩ =>
        ⟨hf, hv, ⟨h₁, h₂, h₃, h₄⟩, ⟨hi, hl, hu⟩, ⟨hl', hu'⟩, hs, hd⟩⟩

/-- A solver that knows some optima.  It answers with the first of them that it finds to be
one of the program, by the marginals alone. -/
def Solver.certified (known : List (Optimum K)) : Solver K := fun _ s =>
  match known.find? fun o => decide (o.IsExact s) with
  | some o => .ok (.optimal o)
  | none => .ok .failed

theorem Solver.certified_isExact (known : List (Optimum K)) : (certified known).IsExact := by
  intro settings s o h
  unfold certified at h
  split at h
  case h_1 o' hfind =>
    cases h
    have hchecked := List.find?_some hfind
    exact of_decide_eq_true hchecked
  case h_2 => cases h

/-! ## Weighing sides -/

theorem dot_combine {n : Nat} {ms : List K} {cs : List (Constraint K)}
    (hrows : ∀ c ∈ cs, c.row.length = n) (w : List K) :
    Scalar.dot (combine n ms cs) w = Scalar.dot ms (cs.map fun c => Scalar.dot c.row w) := by
  induction ms generalizing cs with
  | nil => simp [combine]
  | cons m ms ih =>
    cases cs with
    | nil => simp [combine]
    | cons c cs =>
      have hrest : ∀ d ∈ cs, d.row.length = n := fun d hd => hrows d (by simp [hd])
      rw [combine, Scalar.dot_zipWith_add (by simp [length_combine hrest, hrows c (by simp)]),
        Scalar.dot_map_mul, ih hrest, List.map_cons, Scalar.dot_cons_cons]

variable [IsStrictOrderedRing K]

/-- With weights that are not positive, smaller entries have a larger sum. -/
theorem dot_le_dot_of_nonpos {ws as bs : List K} (hw : ∀ w ∈ ws, w ≤ 0)
    (h : List.Forall₂ (· ≤ ·) as bs) : Scalar.dot ws bs ≤ Scalar.dot ws as := by
  have hw' : ∀ w ∈ ws.map (-1 * ·), 0 ≤ w := by
    intro w hmem
    obtain ⟨v, hv, rfl⟩ := List.mem_map.mp hmem
    rw [neg_one_mul]
    exact neg_nonneg.mpr (hw v hv)
  have hneg := Sense.below_dot (s := .min) hw' h
  rw [Scalar.dot_map_mul, Scalar.dot_map_mul] at hneg
  change -1 * _ ≤ -1 * _ at hneg
  linarith

/-- Lower limits weighed with marginals that are not negative. -/
theorem limitSum_lower_le {columns : List (Option K × Option K)} {ms w : List K}
    (hw : List.Forall₂ Between columns w) (hms : ∀ m ∈ ms, 0 ≤ m)
    (habsent : ∀ e ∈ columns.zip ms, e.1.1 = none → e.2 = 0) :
    limitSum (columns.map Prod.fst) ms ≤ Scalar.dot ms w := by
  induction hw generalizing ms with
  | nil => cases ms <;> simp [limitSum]
  | @cons limits a columns w hbetween _ ih =>
    obtain _ | ⟨m, ms⟩ := ms
    · obtain ⟨_ | l, u⟩ := limits <;> simp [limitSum]
    have hrest : limitSum (columns.map Prod.fst) ms ≤ Scalar.dot ms w :=
      ih (fun m hm => hms m (by simp [hm])) fun e he => habsent e (by simp [he])
    obtain ⟨_ | l, u⟩ := limits
    · have hzero : m = 0 := habsent ((none, u), m) (by simp) rfl
      simpa [limitSum, hzero] using hrest
    · have hla := mul_le_mul_of_nonneg_left (hbetween.1 l rfl) (hms m (by simp))
      rw [List.map_cons, limitSum, Scalar.dot_cons_cons]
      exact add_le_add hla hrest

/-- Upper limits weighed with marginals that are not positive. -/
theorem limitSum_upper_le {columns : List (Option K × Option K)} {ms w : List K}
    (hw : List.Forall₂ Between columns w) (hms : ∀ m ∈ ms, m ≤ 0)
    (habsent : ∀ e ∈ columns.zip ms, e.1.2 = none → e.2 = 0) :
    limitSum (columns.map Prod.snd) ms ≤ Scalar.dot ms w := by
  induction hw generalizing ms with
  | nil => cases ms <;> simp [limitSum]
  | @cons limits a columns w hbetween _ ih =>
    obtain _ | ⟨m, ms⟩ := ms
    · obtain ⟨l, _ | u⟩ := limits <;> simp [limitSum]
    have hrest : limitSum (columns.map Prod.snd) ms ≤ Scalar.dot ms w :=
      ih (fun m hm => hms m (by simp [hm])) fun e he => habsent e (by simp [he])
    obtain ⟨l, _ | u⟩ := limits
    · have hzero : m = 0 := habsent ((l, none), m) (by simp) rfl
      simpa [limitSum, hzero] using hrest
    · have hau := mul_le_mul_of_nonpos_left (hbetween.2 u rfl) (hms m (by simp))
      rw [List.map_cons, limitSum, Scalar.dot_cons_cons]
      exact add_le_add hau hrest

/-! ## The dual program -/

/-- Numbers that belong to the parts of a split program: to its equations, its
inequalities, and the lower and upper limits of its columns. -/
structure Marginals (α : Type) where
  equations : List α
  inequalities : List α
  lower : List α
  upper : List α

/-- The marginals that an optimum comes with. -/
def Optimum.marginals {α : Type} (o : Optimum α) : Marginals α :=
  ⟨o.equationMarginals, o.inequalityMarginals, o.lowerMarginals, o.upperMarginals⟩

/-- The solutions of the dual program: marginals that have the signs of their sides,
are zero where there is no limit, and add up to the costs. -/
structure Split.IsDual (s : Split K) (m : Marginals K) : Prop where
  equationLength : m.equations.length = s.equations.length
  inequalityLength : m.inequalities.length = s.inequalities.length
  lowerLength : m.lower.length = s.columns.length
  upperLength : m.upper.length = s.columns.length
  inequality : ∀ a ∈ m.inequalities, a ≤ 0
  lower : ∀ a ∈ m.lower, 0 ≤ a
  upper : ∀ a ∈ m.upper, a ≤ 0
  lowerAbsent : ∀ e ∈ s.columns.zip m.lower, e.1.1 = none → e.2 = 0
  upperAbsent : ∀ e ∈ s.columns.zip m.upper, e.1.2 = none → e.2 = 0
  stationary : s.costs =
    List.zipWith (· + ·)
      (List.zipWith (· + ·) (combine s.columns.length m.equations s.equations)
        (combine s.columns.length m.inequalities s.inequalities))
      (List.zipWith (· + ·) m.lower m.upper)

/-- The value of marginals: all limits weighed with them. -/
def Split.dualValue (s : Split K) (m : Marginals K) : K :=
  Scalar.dot m.equations (s.equations.map Constraint.rhs) +
    Scalar.dot m.inequalities (s.inequalities.map Constraint.rhs) +
    (limitSum (s.columns.map Prod.fst) m.lower + limitSum (s.columns.map Prod.snd) m.upper)

/-- The optima of the dual program: no solution has a larger value. -/
structure Split.IsDualOptimum (s : Split K) (m : Marginals K) : Prop where
  solution : s.IsDual m
  maximal : ∀ m', s.IsDual m' → s.dualValue m' ≤ s.dualValue m

/-- Weak duality: a solution of the dual program has a value that no feasible point
undercuts. -/
theorem Split.IsDual.value_le {s : Split K} {m : Marginals K} (hm : s.IsDual m)
    (hequations : ∀ c ∈ s.equations, c.row.length = s.columns.length)
    (hinequalities : ∀ c ∈ s.inequalities, c.row.length = s.columns.length)
    {w : List K} (hw : s.Admits w) : s.dualValue m ≤ Scalar.dot s.costs w := by
  have hvalues : s.equations.map (fun c => Scalar.dot c.row w)
      = s.equations.map Constraint.rhs :=
    List.map_congr_left hw.equations
  have hineq : Scalar.dot m.inequalities (s.inequalities.map Constraint.rhs)
      ≤ Scalar.dot m.inequalities (s.inequalities.map fun c => Scalar.dot c.row w) := by
    refine dot_le_dot_of_nonpos hm.inequality ?_
    rw [List.forall₂_map_left_iff, List.forall₂_map_right_iff, List.forall₂_same]
    exact hw.inequalities
  have hlow := limitSum_lower_le hw.columns hm.lower hm.lowerAbsent
  have hhigh := limitSum_upper_le hw.columns hm.upper hm.upperAbsent
  have hcosts : Scalar.dot s.costs w
      = Scalar.dot m.equations (s.equations.map Constraint.rhs)
        + Scalar.dot m.inequalities (s.inequalities.map fun c => Scalar.dot c.row w)
        + (Scalar.dot m.lower w + Scalar.dot m.upper w) := by
    rw [hm.stationary,
      Scalar.dot_zipWith_add (by
        simp [length_combine hequations, length_combine hinequalities, hm.lowerLength,
          hm.upperLength]),
      Scalar.dot_zipWith_add (by rw [length_combine hequations, length_combine hinequalities]),
      Scalar.dot_zipWith_add (hm.lowerLength.trans hm.upperLength.symm),
      dot_combine hequations, dot_combine hinequalities, hvalues]
  unfold Split.dualValue
  linarith

/-! ## Exact optima -/

namespace Optimum.IsExact

variable {o : Optimum K} {s s' : Split K}

omit [IsStrictOrderedRing K] in
theorem isDual (ho : o.IsExact s) : s.IsDual o.marginals where
  equationLength := ho.equationLength
  inequalityLength := ho.inequalityLength
  lowerLength := ho.lowerLength
  upperLength := ho.upperLength
  inequality := ho.inequality
  lower := ho.lower
  upper := ho.upper
  lowerAbsent := ho.lowerAbsent
  upperAbsent := ho.upperAbsent
  stationary := ho.stationary

/-- The marginals of an exact optimum are an optimum of the dual program. -/
theorem isDualOptimum (ho : o.IsExact s)
    (hequations : ∀ c ∈ s.equations, c.row.length = s.columns.length)
    (hinequalities : ∀ c ∈ s.inequalities, c.row.length = s.columns.length) :
    s.IsDualOptimum o.marginals where
  solution := ho.isDual
  maximal m' hm' := calc
    s.dualValue m' ≤ Scalar.dot s.costs o.point :=
      hm'.value_le hequations hinequalities ho.feasible
    _ = s.dualValue o.marginals := ho.value.symm.trans ho.dual

/-- Marginals bound the value of every program with the same rows, costs,
inequalities and limits: the value changes by at least what the marginals of
the equations say. -/
theorem bound (ho : o.IsExact s)
    (hequations : ∀ c ∈ s.equations, c.row.length = s.columns.length)
    (hinequalities : ∀ c ∈ s.inequalities, c.row.length = s.columns.length)
    (hrows : s'.equations.map Constraint.row = s.equations.map Constraint.row)
    (hsides : s'.inequalities = s.inequalities) (hcolumns : s'.columns = s.columns)
    {w : List K} (hw : s'.Admits w) :
    o.value - Scalar.dot o.equationMarginals (s.equations.map Constraint.rhs)
        + Scalar.dot o.equationMarginals (s'.equations.map Constraint.rhs)
      ≤ Scalar.dot s.costs w := by
  -- the marginals solve the dual program of the other program too
  have hlength : s'.equations.length = s.equations.length := by
    simpa using congrArg List.length hrows
  have hdual : ({ s with equations := s'.equations } : Split K).IsDual o.marginals :=
    { ho.isDual with
      equationLength := ho.equationLength.trans hlength.symm
      stationary := by
        rw [combine_congr o.marginals.equations hrows]
        exact ho.stationary }
  have hequations' : ∀ c ∈ s'.equations, c.row.length = s.columns.length := by
    intro c hc
    obtain ⟨d, hd, hrow⟩ := List.mem_map.mp (hrows ▸ List.mem_map_of_mem hc)
    rw [← hrow, hequations d hd]
  have hle := hdual.value_le hequations' hinequalities
    ⟨hw.equations, hsides ▸ hw.inequalities, hcolumns ▸ hw.columns⟩
  have hvalue := ho.dual
  unfold Split.dualValue at hle
  dsimp only [marginals] at hle
  linarith

end Optimum.IsExact

end Multistage.LP
