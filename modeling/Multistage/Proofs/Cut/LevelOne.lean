/-
Multistage.Proofs.Cut.LevelOne — the cuts that win a sample point.

At a sample point the vote goes to the first of the best cuts
(`leader?_eq_some_iff`).  Selection by votes keeps the cuts that have one
(`Store.undominated_of_counted`), so it keeps a best cut of every sample point, and
there the cuts that it keeps are as good as all cuts (`Store.recount_isLevelOne`).
-/
import Multistage.Cut.Dominance
import Multistage.Proofs.Exact
import Multistage.Proofs.Except
import Mathlib.Algebra.BigOperators.Group.List.Basic
import Mathlib.Data.List.Nodup

namespace Multistage

/-! ## Selections -/

/-- A list with a partner for each of its first items, and these left out again. -/
theorem zip_sublist {α β : Type} :
    ∀ (as : List α) (bs : List β), ((as.zip bs).map Prod.fst).Sublist as
  | [], _ => .slnil
  | _ :: _, [] => List.nil_sublist _
  | _ :: as, _ :: bs => (zip_sublist as bs).cons_cons _

/-- Selections pick cuts that a store has, in their order. -/
theorem Selection.select_sublist {α : Type} {selection : Selection} {s : Store α}
    {cuts : List (Cut α)} (h : selection.select s = .ok cuts) : cuts.Sublist s.cuts := by
  cases selection with
  | all =>
    cases h
    exact .refl _
  | levelOne =>
    simp only [select, Store.undominated] at h
    split at h
    · cases h
      exact (List.filter_sublist.map Prod.fst).trans (zip_sublist _ _)
    · split at h
      · cases h
      · refine (sublist_of_filterMapM (fun e c hpick => ?_) h).trans (zip_sublist _ _)
        obtain ⟨vote, -, hpick⟩ := bind_eq_ok.mp hpick
        split at hpick
        · exact (Option.some.inj (pure_eq_ok.mp hpick)).symm
        · cases pure_eq_ok.mp hpick
    · cases h
      exact .refl _

/-! ## Votes and cuts -/

section Votes

variable {α : Type} [Scalar α]

namespace Store

/-- Whether the cut at a position wins a sample point. -/
def leads (sense : Sense) (s : Store α) (k : Nat) : Bool :=
  s.points.any fun p => s.bestAt sense p == some k

/-- The cuts that win a sample point. -/
def leaders (sense : Sense) (s : Store α) : List (Cut α) :=
  (s.cuts.zipIdx.filter fun e => s.leads sense e.2).map Prod.fst

@[simp] theorem length_countVotes (sense : Sense) (s : Store α) :
    (s.countVotes sense).length = s.cuts.length := by
  simp [countVotes]

/-- Every cut is looked up by its own votes. -/
theorem winners_countVotes (sense : Sense) (s : Store α) :
    s.winners (s.countVotes sense) = s.leaders sense := by
  have hvote : ∀ k, decide (0 < ((s.points.map (s.bestAt sense)).count (some k) : Int))
      = s.leads sense k := by
    intro k
    rw [Bool.eq_iff_iff, decide_eq_true_iff, Int.natCast_pos, List.count_pos_iff, leads,
      List.any_eq_true, List.mem_map]
    simp only [beq_iff_eq]
  unfold winners leaders countVotes
  rw [List.zip_map_right, List.filter_map, List.map_map, List.zipIdx_eq_zip_range',
    ← List.range_eq_range']
  refine congrArg₂ List.map rfl (List.filter_congr fun e _ => ?_)
  exact hvote e.2

theorem leaders_sublist (sense : Sense) (s : Store α) : (s.leaders sense).Sublist s.cuts := by
  have h := (List.filter_sublist (p := fun e : Cut α × Nat => s.leads sense e.2)
    (l := s.cuts.zipIdx)).map Prod.fst
  rwa [List.zipIdx_map_fst] at h

theorem mem_leaders {sense : Sense} {s : Store α} {p : Point α} {k : Nat} {c : Cut α}
    (hp : p ∈ s.points) (hbest : s.bestAt sense p = some k) (hc : s.cuts[k]? = some c) :
    c ∈ s.leaders sense := by
  refine List.mem_map.mpr ⟨(c, k), List.mem_filter.mpr ⟨?_, ?_⟩, rfl⟩
  · exact List.mem_zipIdx_iff_getElem?.mpr hc
  · exact List.any_eq_true.mpr ⟨p, hp, beq_iff_eq.mpr hbest⟩

/-- With the votes of the store as it is, the cuts that win a point are selected; without
any point, all are. -/
theorem undominated_of_counted {sense : Sense} {s : Store α}
    (h : s.votes = some (.counted (s.countVotes sense))) :
    s.undominated = .ok (if s.points = [] then s.cuts else s.leaders sense) := by
  unfold undominated
  rw [h]
  cases hpoints : s.points with
  | nil => rfl
  | cons p points =>
    rw [if_neg (List.cons_ne_nil p points), ← winners_countVotes]

omit [Scalar α] in
theorem undominated_of_none {s : Store α} (h : s.votes = none) : s.undominated = .ok s.cuts := by
  unfold undominated
  rw [h]

end Store

end Votes

/-! ## Best values -/

variable {K : Type} [LinearOrder K]

/-- The tightest of some bounds: the highest of lower bounds, the lowest of upper bounds. -/
def Sense.tightest? (s : Sense) (vs : List K) : Option K :=
  match s with
  | min => vs.max?
  | max => vs.min?

theorem Sense.tightest?_eq_some_iff {s : Sense} {vs : List K} {v : K} :
    s.tightest? vs = some v ↔ v ∈ vs ∧ ∀ w ∈ vs, s.below w v := by
  cases s
  · exact List.max?_eq_some_iff
  · exact List.min?_eq_some_iff

/-- A part that holds one of the tightest bounds is as tight as the whole. -/
theorem Sense.tightest?_of_subset {s : Sense} {vs ws : List K} (hsub : ∀ v ∈ ws, v ∈ vs) {v : K}
    (hv : v ∈ ws) (hbest : ∀ w ∈ vs, s.below w v) : s.tightest? ws = s.tightest? vs := by
  rw [tightest?_eq_some_iff.mpr ⟨hsub v hv, hbest⟩, tightest?_eq_some_iff]
  exact ⟨hv, fun w hw => hbest w (hsub w hw)⟩

/-- Bounds that are as tight as others remain so when the same bounds join both. -/
theorem Sense.tightest?_append_congr {s : Sense} {vs ws : List K}
    (h : s.tightest? vs = s.tightest? ws) (added : List K) :
    s.tightest? (vs ++ added) = s.tightest? (ws ++ added) := by
  cases vs with
  | nil =>
    cases ws with
    | nil => rfl
    | cons w ws => cases s <;> cases h
  | cons v vs =>
    cases ws with
    | nil => cases s <;> cases h
    | cons w ws =>
      cases s
      · have hfold : vs.foldl Max.max v = ws.foldl Max.max w := Option.some.inj h
        show some ((vs ++ added).foldl Max.max v) = some ((ws ++ added).foldl Max.max w)
        rw [List.foldl_append, List.foldl_append, hfold]
      · have hfold : vs.foldl Min.min v = ws.foldl Min.min w := Option.some.inj h
        show some ((vs ++ added).foldl Min.min v) = some ((ws ++ added).foldl Min.min w)
        rw [List.foldl_append, List.foldl_append, hfold]

/-- Whether a position holds the first of the tightest bounds. -/
def Sense.IsFirstBest (s : Sense) (vs : List K) (k : Nat) : Prop :=
  ∃ v ∈ vs[k]?, (∀ w ∈ vs, s.below w v) ∧ ∀ w ∈ vs.take k, w ≠ v

instance (s : Sense) (vs : List K) (k : Nat) : Decidable (s.IsFirstBest vs k) :=
  inferInstanceAs (Decidable (∃ v ∈ vs[k]?, (∀ w ∈ vs, s.below w v) ∧ ∀ w ∈ vs.take k, w ≠ v))

theorem Sense.IsFirstBest.unique {s : Sense} {vs : List K} {j k : Nat} (hj : s.IsFirstBest vs j)
    (hk : s.IsFirstBest vs k) : j = k := by
  obtain ⟨v, hv, hvbest, hvfirst⟩ := hj
  obtain ⟨w, hw, hwbest, hwfirst⟩ := hk
  have hvw : v = w :=
    below_antisymm (hwbest v (List.mem_of_getElem? hv)) (hvbest w (List.mem_of_getElem? hw))
  have hnot : ∀ {i n : Nat} {u : K}, vs[i]? = some u → i < n → u ∈ vs.take n := by
    intro i n u hu hin
    exact List.mem_of_getElem? (i := i) (by rw [List.getElem?_take_of_lt hin, hu])
  rcases lt_trichotomy j k with hjk | hjk | hjk
  · exact absurd hvw (hwfirst v (hnot hv hjk))
  · exact hjk
  · exact absurd hvw.symm (hvfirst w (hnot hw hjk))

/-! ## The search for the best value -/

section Search

variable {K : Type} [Field K] [LinearOrder K] {sense : Sense}

theorem takesLead_exact (v a : K) : takesLead sense v a = true ↔ ¬sense.below v a := by
  unfold takesLead
  cases sense <;> simp [Sense.below]

/-- The values that have been looked at are `done`, and the first best of them is at
position `best`. -/
theorem leaderFrom_isFirstBest {rest : List K} :
    ∀ (done : List K) (best : Nat) (leading : K), sense.IsFirstBest done best →
      done[best]? = some leading →
      sense.IsFirstBest (done ++ rest) (leaderFrom sense rest done.length best leading) := by
  induction rest with
  | nil =>
    intro done best leading h _
    rw [List.append_nil]
    exact h
  | cons v rest ih =>
    intro done best leading h hleading
    obtain ⟨w, hw, hbest, hfirst⟩ := h
    cases hleading.symm.trans hw
    obtain ⟨hlt, -⟩ := List.getElem?_eq_some_iff.mp hleading
    rw [List.append_cons]
    unfold leaderFrom
    split
    · rename_i htakes
      have hnot := takesLead_exact v leading |>.mp htakes
      have hbelow := (sense.below_total v leading).resolve_left hnot
      have hnew : (done ++ [v])[done.length]? = some v := List.getElem?_concat_length
      have hstep := ih (done ++ [v]) done.length v ?_ hnew
      · rwa [List.length_append] at hstep
      · refine ⟨v, hnew, fun u hu => ?_, fun u hu => ?_⟩
        · rcases List.mem_append.mp hu with hu | hu
          · exact Sense.below_trans (hbest u hu) hbelow
          · rw [List.mem_singleton.mp hu]
            exact sense.below_refl v
        · rw [List.take_left] at hu
          rintro rfl
          exact hnot (hbest u hu)
    · rename_i hkeeps
      have hbelow : sense.below v leading := by
        by_contra hnot
        exact hkeeps (takesLead_exact v leading |>.mpr hnot)
      have hold : (done ++ [v])[best]? = some leading := by
        rw [List.getElem?_append_left hlt, hleading]
      have hstep := ih (done ++ [v]) best leading ?_ hold
      · rwa [List.length_append] at hstep
      · refine ⟨leading, hold, fun u hu => ?_, ?_⟩
        · rcases List.mem_append.mp hu with hu | hu
          · exact hbest u hu
          · rw [List.mem_singleton.mp hu]
            exact hbelow
        · rw [List.take_append_of_le_length hlt.le]
          exact hfirst

theorem leader?_cons (sense : Sense) (v : K) (vs : List K) :
    ∃ k, leader? sense (v :: vs) = some k ∧ sense.IsFirstBest (v :: vs) k := by
  refine ⟨_, rfl, leaderFrom_isFirstBest [v] 0 v ⟨v, rfl, ?_, by simp⟩ rfl⟩
  simp

/-- The search finds the first of the tightest bounds. -/
theorem leader?_eq_some_iff {vs : List K} {k : Nat} :
    leader? sense vs = some k ↔ sense.IsFirstBest vs k := by
  cases vs with
  | nil =>
    refine iff_of_false nofun ?_
    rintro ⟨v, hv, -⟩
    cases hv
  | cons v vs =>
    obtain ⟨j, hj, hbest⟩ := leader?_cons sense v vs
    rw [hj, Option.some.injEq]
    constructor
    · rintro rfl
      exact hbest
    · exact hbest.unique

end Search

/-! ## Selection by votes -/

section Votes

variable {K : Type} [Field K] [LinearOrder K]

/-- The best value of some cuts at a point; none without cuts. -/
def envelope (sense : Sense) (cuts : List (Cut K)) (p : Point K) : Option K :=
  sense.tightest? (cuts.map fun c => c.eval p)

/-- What selection by votes finds in a store: the votes of its cuts, and the cuts that
it selects. -/
structure Store.IsLevelOne (sense : Sense) (s : Store K) (votes : List Int)
    (selected : List (Cut K)) : Prop where
  counted : votes = (List.range s.cuts.length).map fun k =>
    ((s.points.countP fun p => sense.IsFirstBest (s.cuts.map fun c => c.eval p) k : Nat) : Int)
  total : s.cuts ≠ [] → votes.sum = s.points.length
  sublist : selected.Sublist s.cuts
  all : s.points = [] → selected = s.cuts
  nonempty : s.cuts ≠ [] → selected ≠ []
  length : s.points ≠ [] → selected.length ≤ s.points.length
  envelope : ∀ p ∈ s.points, envelope sense selected p = envelope sense s.cuts p

namespace Store

variable {sense : Sense} {s : Store K}

theorem bestAt_eq_some_iff {p : Point K} {k : Nat} :
    s.bestAt sense p = some k ↔ sense.IsFirstBest (s.cuts.map fun c => c.eval p) k :=
  leader?_eq_some_iff

/-- With a cut there is a winner at every point. -/
theorem exists_bestAt (sense : Sense) (h : s.cuts ≠ []) (p : Point K) :
    ∃ k c, s.bestAt sense p = some k ∧ s.cuts[k]? = some c ∧
      ∀ c' ∈ s.cuts, sense.below (c'.eval p) (c.eval p) := by
  obtain ⟨first, rest, hcuts⟩ := List.exists_cons_of_ne_nil h
  obtain ⟨k, hk, -⟩ := leader?_cons sense (first.eval p) (rest.map fun c => c.eval p)
  have hbest : s.bestAt sense p = some k := by
    rw [bestAt, hcuts, List.map_cons, hk]
  obtain ⟨v, hv, hbelow, -⟩ := bestAt_eq_some_iff.mp hbest
  rw [Option.mem_def, List.getElem?_map, Option.map_eq_some_iff] at hv
  obtain ⟨c, hc, rfl⟩ := hv
  exact ⟨k, c, hbest, hc, fun c' hc' => hbelow _ (List.mem_map_of_mem hc')⟩

theorem countVotes_eq (sense : Sense) (s : Store K) :
    s.countVotes sense = (List.range s.cuts.length).map fun k =>
      ((s.points.countP fun p =>
        sense.IsFirstBest (s.cuts.map fun c => c.eval p) k : Nat) : Int) := by
  unfold countVotes
  refine List.map_congr_left fun k _ => congrArg Nat.cast ?_
  rw [List.count_eq_countP, List.countP_map]
  refine List.countP_congr fun p _ => ?_
  rw [Function.comp_apply, beq_iff_eq, decide_eq_true_iff, bestAt_eq_some_iff]

/-- Every point has one vote. -/
theorem sum_countVotes (h : s.cuts ≠ []) : (s.countVotes sense).sum = s.points.length := by
  unfold countVotes
  induction s.points with
  | nil => simp
  | cons p points ih =>
    obtain ⟨k, c, hbest, hc, -⟩ := exists_bestAt sense h p
    obtain ⟨hk, -⟩ := List.getElem?_eq_some_iff.mp hc
    have hone : ((List.range s.cuts.length).map fun j => if j = k then (1 : Int) else 0).sum
        = 1 := by
      rw [List.sum_map_ite_eq, List.count_eq_one_of_mem List.nodup_range (List.mem_range.mpr hk)]
      simp
    have hsplit : ∀ j, (((p :: points).map (s.bestAt sense)).count (some j) : Int)
        = (points.map (s.bestAt sense)).count (some j) + if j = k then (1 : Int) else 0 := by
      intro j
      rw [List.map_cons, List.count_cons, hbest]
      by_cases hj : j = k
      · simp [hj]
      · simp [hj, Ne.symm hj]
    simp only [hsplit]
    rw [List.sum_map_add, hone, ih, List.length_cons, Nat.cast_succ]

/-- A point elects at most one cut. -/
theorem length_leaders_le (sense : Sense) (s : Store K) :
    (s.leaders sense).length ≤ s.points.length := by
  let winning := (s.cuts.zipIdx.filter fun e => s.leads sense e.2).map Prod.snd
  have hnodup : winning.Nodup :=
    (List.zipIdx_map_snd 0 s.cuts ▸ List.nodup_range').sublist (List.filter_sublist.map Prod.snd)
  have helected : winning.map some ⊆ s.points.map (s.bestAt sense) := by
    intro w hw
    obtain ⟨k, hk, rfl⟩ := List.mem_map.mp hw
    obtain ⟨e, he, rfl⟩ := List.mem_map.mp hk
    obtain ⟨p, hp, hbest⟩ := List.any_eq_true.mp (List.mem_filter.mp he).2
    exact List.mem_map.mpr ⟨p, hp, beq_iff_eq.mp hbest⟩
  have hlength := (List.subperm_of_subset
    (hnodup.map (Option.some_injective Nat)) helected).length_le
  unfold leaders
  simpa [winning] using hlength

/-- Selection by new votes. -/
theorem recount_isLevelOne (sense : Sense) (s : Store K) :
    ∃ selected, Selection.levelOne.select (s.recount sense) = .ok selected ∧
      s.IsLevelOne sense (s.countVotes sense) selected := by
  refine ⟨_, undominated_of_counted rfl, ?_⟩
  show s.IsLevelOne sense _ (if s.points = [] then s.cuts else s.leaders sense)
  have hleader : ∀ p ∈ s.points, s.cuts ≠ [] → ∃ c ∈ s.leaders sense,
      ∀ c' ∈ s.cuts, sense.below (c'.eval p) (c.eval p) := by
    intro p hp hcuts
    obtain ⟨k, c, hbest, hc, hbelow⟩ := exists_bestAt sense hcuts p
    exact ⟨c, mem_leaders hp hbest hc, hbelow⟩
  refine ⟨countVotes_eq sense s, sum_countVotes, ?_, fun hpoints => if_pos hpoints, ?_, ?_, ?_⟩
  · split
    · exact .refl _
    · exact leaders_sublist sense s
  · intro hcuts
    split
    · exact hcuts
    · rename_i hpoints
      obtain ⟨p, hp⟩ := List.exists_mem_of_ne_nil _ hpoints
      obtain ⟨c, hc, -⟩ := hleader p hp hcuts
      exact List.ne_nil_of_mem hc
  · intro hpoints
    rw [if_neg hpoints]
    exact length_leaders_le sense s
  · intro p hp
    rw [if_neg (List.ne_nil_of_mem hp)]
    by_cases hcuts : s.cuts = []
    · have hnone : s.leaders sense = [] :=
        List.sublist_nil.mp (hcuts ▸ leaders_sublist sense s)
      rw [hnone, hcuts]
    · obtain ⟨c, hc, hbelow⟩ := hleader p hp hcuts
      refine Sense.tightest?_of_subset (fun v hv => ?_) (List.mem_map_of_mem hc) fun w hw => ?_
      · obtain ⟨c', hc', rfl⟩ := List.mem_map.mp hv
        exact List.mem_map_of_mem ((leaders_sublist sense s).subset hc')
      · obtain ⟨c', hc', rfl⟩ := List.mem_map.mp hw
        exact hbelow c' hc'

end Store

end Votes

end Multistage
