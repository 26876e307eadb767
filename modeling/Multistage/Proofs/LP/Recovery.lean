/-
Multistage.Proofs.LP.Recovery — from the marginals of the pieces to duals of rows.

Splitting sorts the limits of the rows by their kinds: first all equations, then all
upper sides, then all lower sides with their rows negated.  `place` says where the side
of a row is found, and `recover` puts the marginals back in the order of the rows
(`Program.recoverDuals_carries`).

Splitting is linear in the rows, and `recover` is its adjoint: weighing the rows of a
program with the recovered duals is weighing the pieces with their marginals
(`Program.transposeMul_recoverDuals`).  So marginals that add up to the costs are
recovered as duals that add up to the costs.
-/
import Multistage.Proofs.LP.Limits

namespace Multistage.LP

/-! ## Rows with a side -/

section Picking

variable {α β : Type}

/-- The entries that belong to the ranges with a side of a kind. -/
def pick (side? : Range α → Option α) (ranges : List (Range α)) (v : List β) : List β :=
  (ranges.zip v).filterMap fun (r, a) => (side? r).map fun _ => a

/-- The number of ranges before the `i`-th that have a side of a kind: the place of its
side among the sides of that kind. -/
def place (side? : Range α → Option α) (ranges : List (Range α)) (i : Nat) : Nat :=
  (ranges.take i).countP fun r => (side? r).isSome

variable {side? : Range α → Option α}

@[simp] theorem pick_nil (v : List β) : pick side? [] v = [] := rfl

theorem pick_cons (r : Range α) (ranges : List (Range α)) (a : β) (v : List β) :
    pick side? (r :: ranges) (a :: v)
      = if (side? r).isSome then a :: pick side? ranges v else pick side? ranges v := by
  unfold pick
  cases h : side? r <;> simp [h]

theorem map_sides {f : List α → β} (rows : List (List α)) (ranges : List (Range α)) :
    (sides side? rows ranges).map (fun c => f c.row) = pick side? ranges (rows.map f) := by
  induction rows generalizing ranges with
  | nil => simp [sides, pick]
  | cons row rows ih =>
    obtain _ | ⟨r, ranges⟩ := ranges
    · rfl
    rw [List.map_cons, pick_cons, ← ih]
    unfold sides
    cases h : side? r <;> simp [h]

/-- The limits on the sides of a kind, in the order of the rows. -/
theorem map_rhs_sides {rows : List (List α)} {ranges : List (Range α)}
    (h : rows.length = ranges.length) :
    (sides side? rows ranges).map Constraint.rhs = ranges.filterMap side? := by
  have hsnd : ∀ e ∈ rows.zip ranges,
      ((side? e.2).map (Constraint.mk e.1)).map Constraint.rhs = side? e.2 := by
    intro e _
    cases side? e.2 <;> rfl
  have hranges : ranges.filterMap side? = (rows.zip ranges).filterMap (side? ∘ Prod.snd) := by
    rw [← List.filterMap_map, List.map_snd_zip h.ge]
  unfold sides
  rw [List.map_filterMap, hranges]
  exact List.filterMap_congr hsnd

theorem length_sides {rows : List (List α)} {ranges : List (Range α)}
    (h : rows.length = ranges.length) :
    (sides side? rows ranges).length = (ranges.filterMap side?).length := by
  rw [← map_rhs_sides h, List.length_map]

theorem length_pick {ranges : List (Range α)} {v : List β} (h : v.length = ranges.length) :
    (pick side? ranges v).length = (ranges.filterMap side?).length := by
  induction ranges generalizing v with
  | nil => rfl
  | cons r ranges ih =>
    obtain _ | ⟨a, v⟩ := v
    · cases h
    rw [pick_cons, List.filterMap_cons]
    cases side? r with
    | none => exact ih (Nat.succ.inj h)
    | some b => exact congrArg (· + 1) (ih (Nat.succ.inj h))

/-- The side of a row is found at its place. -/
theorem sides_getElem? {rows : List (List α)} {ranges : List (Range α)} {i : Nat} {row : List α}
    {r : Range α} (hrow : rows[i]? = some row) (hr : ranges[i]? = some r) {b : α}
    (hb : side? r = some b) :
    (sides side? rows ranges)[place side? ranges i]? = some ⟨row, b⟩ := by
  induction i generalizing rows ranges with
  | zero =>
    obtain _ | ⟨row', rows⟩ := rows
    · cases hrow
    obtain _ | ⟨r', ranges⟩ := ranges
    · cases hr
    cases hrow
    cases hr
    simp [sides, place, hb]
  | succ i ih =>
    obtain _ | ⟨row', rows⟩ := rows
    · cases hrow
    obtain _ | ⟨r', ranges⟩ := ranges
    · cases hr
    have hrow : rows[i]? = some row := hrow
    have hr : ranges[i]? = some r := hr
    have hrest := ih hrow hr
    unfold sides place at hrest ⊢
    rw [List.zip_cons_cons, List.filterMap_cons, List.take_succ_cons, List.countP_cons]
    cases h : side? r' with
    | none => simpa [h] using hrest
    | some b' => simpa [h] using hrest

theorem place_lt {ranges : List (Range α)} {i : Nat} {r : Range α} (hr : ranges[i]? = some r)
    (hside : (side? r).isSome) : place side? ranges i < (ranges.filterMap side?).length := by
  obtain ⟨b, hb⟩ := Option.isSome_iff_exists.mp hside
  -- any rows will do
  obtain ⟨rows, hrows⟩ : ∃ rows : List (List α), rows = ranges.map fun _ => [] := ⟨_, rfl⟩
  have hlen : rows.length = ranges.length := by simp [hrows]
  have hrow : rows[i]? = some [] := by rw [hrows, List.getElem?_map, hr, Option.map_some]
  rw [← length_sides hlen]
  exact (List.getElem?_eq_some_iff.mp (sides_getElem? hrow hr hb)).1

end Picking

/-! ## Recovered duals -/

section Recovering

variable {K : Type} [Field K]

/-- The marginal of the `i`-th row on a side of a kind; zero if it has no such side. -/
def marginalAt (side? : Range K → Option K) (ranges : List (Range K)) (i : Nat) (ms : List K) : K :=
  match ranges[i]?.bind side? with
  | some _ => ms.getD (place side? ranges i) 0
  | none => 0

theorem marginalAt_none {side? : Range K → Option K} {ranges : List (Range K)} {i : Nat}
    {r : Range K} (hr : ranges[i]? = some r) (hside : side? r = none) (ms : List K) :
    marginalAt side? ranges i ms = 0 := by
  simp [marginalAt, hr, hside]

/-- At the place of a side stand the constraint and its marginal. -/
theorem zip_sides_getElem? {side? : Range K → Option K} {rows : List (List K)}
    {ranges : List (Range K)} {ms : List K} (hlen : rows.length = ranges.length)
    (hms : ms.length = (sides side? rows ranges).length) {i : Nat} {row : List K} {r : Range K}
    (hrow : rows[i]? = some row) (hr : ranges[i]? = some r) {b : K} (hb : side? r = some b) :
    ((sides side? rows ranges).zip ms)[place side? ranges i]?
      = some (⟨row, b⟩, marginalAt side? ranges i ms) := by
  have hlt : place side? ranges i < ms.length := by
    rw [hms, length_sides hlen]
    exact place_lt hr (hb ▸ rfl)
  refine List.getElem?_zip_eq_some.mpr ⟨sides_getElem? hrow hr hb, ?_⟩
  simp [marginalAt, hr, hb, hlt]

variable [LinearOrder K]

/-- A row has a marginal as an equation, or it has marginals on its sides; what it has
not is zero. -/
theorem recover_cons (r : Range K) (ranges : List (Range K)) (eqs ups lows : List K) :
    recover (r :: ranges) eqs ups lows
      = ((takeSide r.equation? eqs).1
          + ((takeSide r.upperSide? ups).1 - (takeSide r.lowerSide? lows).1)) ::
        recover ranges (takeSide r.equation? eqs).2 (takeSide r.upperSide? ups).2
          (takeSide r.lowerSide? lows).2 := by
  rw [recover]
  dsimp only
  congr 1
  cases heq : r.equation? with
  | none => simp [takeSide]
  | some b => simp [Range.upperSide?, Range.lowerSide?, heq, takeSide]

@[simp] theorem length_recover (ranges : List (Range K)) (eqs ups lows : List K) :
    (recover ranges eqs ups lows).length = ranges.length := by
  induction ranges generalizing eqs ups lows with
  | nil => rfl
  | cons r ranges ih => rw [recover_cons, List.length_cons, ih, List.length_cons]

theorem marginalAt_zero (side? : Range K → Option K) (r : Range K) (ranges : List (Range K))
    (ms : List K) : marginalAt side? (r :: ranges) 0 ms = (takeSide (side? r) ms).1 := by
  unfold marginalAt
  cases h : side? r <;> cases ms <;> simp [h, place, takeSide]

theorem marginalAt_succ (side? : Range K → Option K) (r : Range K) (ranges : List (Range K))
    (i : Nat) (ms : List K) :
    marginalAt side? (r :: ranges) (i + 1) ms
      = marginalAt side? ranges i (takeSide (side? r) ms).2 := by
  have hplace : place side? (r :: ranges) (i + 1)
      = place side? ranges i + if (side? r).isSome then 1 else 0 := by
    rw [place, List.take_succ_cons, List.countP_cons]
    rfl
  unfold marginalAt
  rw [List.getElem?_cons_succ, hplace]
  cases h : side? r <;> cases ms <;> simp [takeSide]

/-- Every row has the marginals that stand at its places. -/
theorem recover_getElem? (ranges : List (Range K)) (eqs ups lows : List K) (i : Nat) :
    (recover ranges eqs ups lows)[i]? = ranges[i]?.map fun _ =>
      marginalAt Range.equation? ranges i eqs
        + (marginalAt Range.upperSide? ranges i ups
          - marginalAt Range.lowerSide? ranges i lows) := by
  induction ranges generalizing eqs ups lows i with
  | nil => rfl
  | cons r ranges ih =>
    rw [recover_cons]
    cases i with
    | zero => simp only [marginalAt_zero, List.getElem?_cons_zero, Option.map_some]
    | succ i => simp only [marginalAt_succ, List.getElem?_cons_succ, ih]

theorem dot_pick_cons (side? : Range K → Option K) (r : Range K) (ranges : List (Range K)) (a : K)
    (v ms : List K) :
    Scalar.dot ms (pick side? (r :: ranges) (a :: v))
      = (takeSide (side? r) ms).1 * a
        + Scalar.dot (takeSide (side? r) ms).2 (pick side? ranges v) := by
  rw [pick_cons]
  cases side? r <;> cases ms <;> simp [takeSide]

/-- The adjoint of picking: a sum over the rows is a sum over the sides. -/
theorem dot_recover (ranges : List (Range K)) (eqs ups lows v : List K) :
    Scalar.dot (recover ranges eqs ups lows) v
      = Scalar.dot eqs (pick Range.equation? ranges v)
        + (Scalar.dot ups (pick Range.upperSide? ranges v)
          - Scalar.dot lows (pick Range.lowerSide? ranges v)) := by
  induction ranges generalizing eqs ups lows v with
  | nil => simp [recover]
  | cons r ranges ih =>
    obtain _ | ⟨a, v⟩ := v
    · simp [pick]
    rw [recover_cons, Scalar.dot_cons_cons, ih, dot_pick_cons, dot_pick_cons, dot_pick_cons]
    ring

/-! ## The transposed rows -/

/-- The transpose of a matrix with so many columns, times a vector. -/
def transposeMul (n : Nat) (rows : List (List K)) (y : List K) : List K :=
  (List.range n).map fun j => Scalar.dot y (rows.map fun row => row.getD j 0)

theorem combine_eq_transposeMul {n : Nat} {ms : List K} {cs : List (Constraint K)}
    (hrows : ∀ c ∈ cs, c.row.length = n) :
    combine n ms cs = transposeMul n (cs.map Constraint.row) ms := by
  have hzero : ∀ rows : List (List K), transposeMul n rows [] = List.replicate n 0 := by
    intro rows
    simp [transposeMul]
  induction ms generalizing cs with
  | nil => simp [hzero, combine]
  | cons m ms ih =>
    obtain _ | ⟨c, cs⟩ := cs
    · simp [combine, transposeMul]
    have hrow : c.row.map (m * ·) = (List.range n).map fun j => m * c.row.getD j 0 := by
      conv_lhs => rw [← map_getD_range c.row, hrows c (by simp), List.map_map]
      rfl
    rw [combine, ih fun d hd => hrows d (by simp [hd]), hrow, transposeMul, transposeMul,
      List.zipWith_map, List.zipWith_self]
    refine List.map_congr_left fun j _ => ?_
    rw [List.map_cons, List.map_cons, Scalar.dot_cons_cons]

end Recovering

section Exact

variable {K : Type} [Field K] [LinearOrder K]

/-- The parts of a program fit: one range and as many entries as there are costs for
every row, one range for every cost. -/
structure Program.Fits (p : Program K) : Prop where
  ranges : p.rowRanges.length = p.rows.length
  width : ∀ row ∈ p.rows, row.length = p.costs.length
  columns : p.columnRanges.length = p.costs.length

namespace Program

variable {p : Program K} {eqs ineqs : List K}

/-- The marginals of inequalities are those of the upper sides, and then those of the
lower sides. -/
theorem exists_sides (h : ineqs.length = p.split.inequalities.length) :
    ∃ ups lows, ineqs = ups ++ lows ∧
      ups.length = (sides Range.upperSide? p.rows p.rowRanges).length ∧
      lows.length = (sides Range.lowerSide? p.rows p.rowRanges).length := by
  have hlen : ineqs.length = (sides Range.upperSide? p.rows p.rowRanges).length
      + (sides Range.lowerSide? p.rows p.rowRanges).length := by
    rw [h]
    simp [Program.split]
  refine ⟨ineqs.take _, ineqs.drop _, (List.take_append_drop _ _).symm,
    List.length_take_of_le (by omega), ?_⟩
  rw [List.length_drop]
  omega

theorem recoverDuals_append {ups : List K} (eqs lows : List K)
    (hups : ups.length = (sides Range.upperSide? p.rows p.rowRanges).length) :
    p.recoverDuals eqs (ups ++ lows) = recover p.rowRanges eqs ups lows := by
  show recover p.rowRanges eqs ((ups ++ lows).take _) ((ups ++ lows).drop _) = _
  rw [List.take_left' hups, List.drop_left' hups]

/-- Recovering is the adjoint of splitting. -/
theorem transposeMul_recoverDuals (n : Nat) (eqs : List K)
    (hineqs : ineqs.length = p.split.inequalities.length) :
    transposeMul n p.rows (p.recoverDuals eqs ineqs)
      = List.zipWith (· + ·) (transposeMul n (p.split.equations.map Constraint.row) eqs)
          (transposeMul n (p.split.inequalities.map Constraint.row) ineqs) := by
  obtain ⟨ups, lows, rfl, hups, -⟩ := exists_sides hineqs
  rw [recoverDuals_append eqs lows hups]
  unfold transposeMul
  rw [List.zipWith_map, List.zipWith_self]
  refine List.map_congr_left fun j _ => ?_
  have hlower : (sides Range.lowerSide? p.rows p.rowRanges).map
        (fun c => c.negate.row.getD j 0)
      = (pick Range.lowerSide? p.rowRanges (p.rows.map fun row => row.getD j 0)).map (-1 * ·) := by
    rw [← map_sides, List.map_map]
    refine List.map_congr_left fun c _ => ?_
    cases h : c.row[j]? <;> simp [Constraint.negate, h]
  have hequations : (p.split.equations.map Constraint.row).map (fun row => row.getD j 0)
      = pick Range.equation? p.rowRanges (p.rows.map fun row => row.getD j 0) := by
    rw [List.map_map, ← map_sides]
    rfl
  have hinequalities : (p.split.inequalities.map Constraint.row).map (fun row => row.getD j 0)
      = pick Range.upperSide? p.rowRanges (p.rows.map fun row => row.getD j 0)
        ++ (pick Range.lowerSide? p.rowRanges
          (p.rows.map fun row => row.getD j 0)).map (-1 * ·) := by
    rw [← hlower, List.map_map, ← map_sides]
    simp [Program.split, Function.comp_def]
  have hlength : ups.length
      = (pick Range.upperSide? p.rowRanges (p.rows.map fun row => row.getD j 0)).length := by
    rw [← map_sides, List.length_map, hups]
  rw [hequations, hinequalities, dot_recover, Scalar.dot_append hlength, Scalar.dot_comm lows,
    Scalar.dot_comm lows, Scalar.dot_map_mul]
  ring

end Program

/-! ## The rows of a program -/

namespace Program

/-- The place of a row among the equations of the split program. -/
def equationPlace (p : Program K) (i : Nat) : Nat := place Range.equation? p.rowRanges i

/-- The place of the upper side of a row among the inequalities of the split program. -/
def upperPlace (p : Program K) (i : Nat) : Nat := place Range.upperSide? p.rowRanges i

/-- The place of the lower side of a row among the inequalities of the split program,
where all upper sides come first. -/
def lowerPlace (p : Program K) (i : Nat) : Nat :=
  (sides Range.upperSide? p.rows p.rowRanges).length + place Range.lowerSide? p.rowRanges i

/-- The duals that rows of every kind have.  An equation has the marginal that stands at
its place; a row with an upper limit only has the marginal of that side; a row with a lower
limit only has minus the marginal of that side; a row with both has the difference; and a row with
neither has zero. -/
structure Carries (p : Program K) (eqs ineqs y : List K) : Prop where
  equation : ∀ i row b, p.rows[i]? = some row → p.rowRanges[i]? = some ⟨.finite b, .finite b⟩ →
    ∃ m, (p.split.equations.zip eqs)[p.equationPlace i]? = some (.mk row b, m) ∧ y[i]? = some m
  upper : ∀ i row u, p.rows[i]? = some row → p.rowRanges[i]? = some ⟨.negInf, .finite u⟩ →
    ∃ m, (p.split.inequalities.zip ineqs)[p.upperPlace i]? = some (.mk row u, m) ∧ y[i]? = some m
  lower : ∀ i row l, p.rows[i]? = some row → p.rowRanges[i]? = some ⟨.finite l, .posInf⟩ →
    ∃ m, (p.split.inequalities.zip ineqs)[p.lowerPlace i]?
        = some (Constraint.negate (.mk row l), m) ∧ y[i]? = some (-m)
  both : ∀ i row l u, p.rows[i]? = some row → p.rowRanges[i]? = some ⟨.finite l, .finite u⟩ →
    l ≠ u → ∃ m m', (p.split.inequalities.zip ineqs)[p.upperPlace i]? = some (.mk row u, m) ∧
      (p.split.inequalities.zip ineqs)[p.lowerPlace i]? = some (Constraint.negate (.mk row l), m') ∧
      y[i]? = some (m - m')
  free : ∀ i : Nat, p.rowRanges[i]? = some ⟨.negInf, .posInf⟩ → y[i]? = some 0

section Places

variable [IsStrictOrderedRing K] {p : Program K}

variable {eqs ups lows row : List K} {r : Range K} {i : Nat} {b : K}

omit [IsStrictOrderedRing K] in
/-- The inequalities with their marginals: those of the upper sides, then those of the lower
sides. -/
theorem zip_inequalities (p : Program K) (lows : List K)
    (hups : ups.length = (sides Range.upperSide? p.rows p.rowRanges).length) :
    p.split.inequalities.zip (ups ++ lows)
      = (sides Range.upperSide? p.rows p.rowRanges).zip ups
        ++ ((sides Range.lowerSide? p.rows p.rowRanges).zip lows).map
            (Prod.map Constraint.negate id) := by
  show (_ ++ List.map _ _).zip _ = _
  rw [List.zip_append hups.symm, List.zip_map_left]

omit [IsStrictOrderedRing K] in
theorem zip_upperPlace (hfits : p.Fits) (lows : List K)
    (hups : ups.length = (sides Range.upperSide? p.rows p.rowRanges).length)
    (hrow : p.rows[i]? = some row) (hr : p.rowRanges[i]? = some r) (hb : r.upperSide? = some b) :
    (p.split.inequalities.zip (ups ++ lows))[p.upperPlace i]?
      = some (⟨row, b⟩, marginalAt Range.upperSide? p.rowRanges i ups) := by
  have hplaced := zip_sides_getElem? hfits.ranges.symm hups hrow hr hb
  rw [zip_inequalities p lows hups, upperPlace,
    List.getElem?_append_left (List.getElem?_eq_some_iff.mp hplaced).1]
  exact hplaced

omit [IsStrictOrderedRing K] in
theorem zip_lowerPlace (hfits : p.Fits)
    (hups : ups.length = (sides Range.upperSide? p.rows p.rowRanges).length)
    (hlows : lows.length = (sides Range.lowerSide? p.rows p.rowRanges).length)
    (hrow : p.rows[i]? = some row) (hr : p.rowRanges[i]? = some r) (hb : r.lowerSide? = some b) :
    (p.split.inequalities.zip (ups ++ lows))[p.lowerPlace i]?
      = some (Constraint.negate ⟨row, b⟩, marginalAt Range.lowerSide? p.rowRanges i lows) := by
  -- all upper sides come first
  have hfirst : ((sides Range.upperSide? p.rows p.rowRanges).zip ups).length
      = (sides Range.upperSide? p.rows p.rowRanges).length := by
    rw [List.length_zip, hups, Nat.min_self]
  rw [zip_inequalities p lows hups, lowerPlace, List.getElem?_append_right (by omega), hfirst,
    Nat.add_sub_cancel_left, List.getElem?_map,
    zip_sides_getElem? hfits.ranges.symm hlows hrow hr hb]
  rfl

omit [IsStrictOrderedRing K] in
/-- The dual of a row is put together from the marginals of its equation and its sides. -/
theorem recover_at {ranges : List (Range K)} (hr : ranges[i]? = some r) :
    (recover ranges eqs ups lows)[i]?
      = some (marginalAt Range.equation? ranges i eqs
        + (marginalAt Range.upperSide? ranges i ups
          - marginalAt Range.lowerSide? ranges i lows)) := by
  rw [recover_getElem?, hr, Option.map_some]

theorem recoverDuals_carries (hfits : p.Fits) (hspread : ∀ r ∈ p.rowRanges, r.Spread)
    {eqs ineqs : List K} (heqs : eqs.length = p.split.equations.length)
    (hineqs : ineqs.length = p.split.inequalities.length) :
    p.Carries eqs ineqs (p.recoverDuals eqs ineqs) := by
  obtain ⟨ups, lows, rfl, hups, hlows⟩ := exists_sides hineqs
  rw [recoverDuals_append eqs lows hups]
  refine ⟨fun i row b hrow hr => ?_, fun i row u hrow hr => ?_, fun i row l hrow hr => ?_,
    fun i row l u hrow hr hne => ?_, fun i hr => ?_⟩
  · have hb : (⟨.finite b, .finite b⟩ : Range K).equation? = some b := equation?_range .equal b
    refine ⟨_, zip_sides_getElem? hfits.ranges.symm heqs hrow hr hb, ?_⟩
    rw [recover_at hr, marginalAt_none hr (equal_upperSide? b),
      marginalAt_none hr (equal_lowerSide? b), sub_zero, add_zero]
  · have heq : (⟨.negInf, .finite u⟩ : Range K).equation? = none := rfl
    have hl : (⟨.negInf, .finite u⟩ : Range K).lowerSide? = none := rfl
    refine ⟨_, zip_upperPlace hfits lows hups hrow hr rfl, ?_⟩
    rw [recover_at hr, marginalAt_none hr heq, marginalAt_none hr hl, zero_add, sub_zero]
  · have heq : (⟨.finite l, .posInf⟩ : Range K).equation? = none := rfl
    have hu : (⟨.finite l, .posInf⟩ : Range K).upperSide? = none := rfl
    refine ⟨_, zip_lowerPlace hfits hups hlows hrow hr rfl, ?_⟩
    rw [recover_at hr, marginalAt_none hr heq, marginalAt_none hr hu, zero_add, zero_sub]
  · have hnone : (⟨.finite l, .finite u⟩ : Range K).equation? = none := by
      refine Option.eq_none_iff_forall_ne_some.mpr fun b hb => hne ?_
      obtain ⟨hl, hu⟩ := (Range.equation?_eq_some
        (hspread _ (List.mem_of_getElem? hr))).mp hb
      exact (Limit.finite.inj hl).trans (Limit.finite.inj hu).symm
    have hu : (⟨.finite l, .finite u⟩ : Range K).upperSide? = some u := by
      rw [Range.upperSide?, hnone]
      rfl
    have hl : (⟨.finite l, .finite u⟩ : Range K).lowerSide? = some l := by
      rw [Range.lowerSide?, hnone]
      rfl
    refine ⟨_, _, zip_upperPlace hfits lows hups hrow hr hu,
      zip_lowerPlace hfits hups hlows hrow hr hl, ?_⟩
    rw [recover_at hr, marginalAt_none hr hnone, zero_add]
  · have heq : (⟨.negInf, .posInf⟩ : Range K).equation? = none := rfl
    have hu : (⟨.negInf, .posInf⟩ : Range K).upperSide? = none := rfl
    have hl : (⟨.negInf, .posInf⟩ : Range K).lowerSide? = none := rfl
    rw [recover_at hr, marginalAt_none hr heq, marginalAt_none hr hu, marginalAt_none hr hl,
      zero_add, sub_zero]

end Places

end Program

end Exact

end Multistage.LP
