/-
Multistage.Proofs.Round.Union — merging is a union of sets.

A merge adds to a store the points and cuts of the deltas that it does not have, each
once and in increasing order, or it fails and changes nothing.  Which delta holds an item
does not matter, nor how often it is held; so the results of the workers can be
merged in any order, into one store (`Store.IsMerged`) as well as into all stores of a
model (`Model.mergeAll_related`).
-/
import Multistage.Proofs.Binary64.Order
import Multistage.Proofs.Cut.Union
import Multistage.Proofs.Round.Rebuild

namespace Multistage

variable {α : Type}

/-! ## Deltas with the same items -/

/-- Whether deltas hold the same points and the same cuts, in any order and in any
distribution among them. -/
structure HoldSame (deltas deltas' : List (Delta α)) : Prop where
  points : (deltas.flatMap Delta.points).Perm (deltas'.flatMap Delta.points)
  cuts : (deltas.flatMap Delta.cuts).Perm (deltas'.flatMap Delta.cuts)

theorem HoldSame.of_perm {deltas deltas' : List (Delta α)} (h : deltas.Perm deltas') :
    HoldSame deltas deltas' :=
  ⟨h.flatMap_right _, h.flatMap_right _⟩

theorem HoldSame.symm {deltas deltas' : List (Delta α)} (h : HoldSame deltas deltas') :
    HoldSame deltas' deltas :=
  ⟨h.points.symm, h.cuts.symm⟩

theorem hasDimension_iff_flatMap {deltas : List (Delta α)} {n : Int} :
    (∀ d ∈ deltas, d.HasDimension n) ↔
      (∀ p ∈ deltas.flatMap Delta.points, (p.length : Int) = n) ∧
      ∀ c ∈ deltas.flatMap Delta.cuts, (c.coefficients.length : Int) = n := by
  simp only [List.mem_flatMap]
  constructor
  · exact fun h => ⟨fun p ⟨d, hd, hp⟩ => (h d hd).points p hp,
      fun c ⟨d, hd, hc⟩ => (h d hd).cuts c hc⟩
  · exact fun h d hd => ⟨fun p hp => h.1 p ⟨d, hd, hp⟩, fun c hc => h.2 c ⟨d, hd, hc⟩⟩

theorem HoldSame.hasDimension {deltas deltas' : List (Delta α)} (h : HoldSame deltas deltas')
    {n : Int} (hdim : ∀ d ∈ deltas, d.HasDimension n) : ∀ d ∈ deltas', d.HasDimension n := by
  rw [hasDimension_iff_flatMap] at hdim ⊢
  exact ⟨fun p hp => hdim.1 p (h.points.mem_iff.mpr hp),
    fun c hc => hdim.2 c (h.cuts.mem_iff.mpr hc)⟩

theorem HoldSame.any_contains {β : Type} [BEq β] [PartialEquivBEq β]
    {deltas deltas' : List (Delta α)} {part : Delta α → List β}
    (h : (deltas.flatMap part).Perm (deltas'.flatMap part)) (b : β) :
    ((deltas.map part).any fun xs => xs.contains b)
      = (deltas'.map part).any fun xs => xs.contains b := by
  have hany : ∀ ds : List (Delta α),
      ((ds.map part).any fun xs => xs.contains b) = (ds.flatMap part).contains b := by
    intro ds
    rw [List.flatMap_def, List.contains_eq_any_beq, List.any_flatten]
    simp only [List.contains_eq_any_beq]
  rw [hany, hany, h.contains_eq]

theorem HoldSame.isNumeric [Scalar α] {deltas deltas' : List (Delta α)}
    (h : HoldSame deltas deltas') (hnumbers : ∀ d ∈ deltas, d.IsNumeric) :
    ∀ d ∈ deltas', d.IsNumeric := by
  intro d hd
  constructor
  · intro p hp
    obtain ⟨d', hd', hp'⟩ := List.mem_flatMap.mp
      (h.points.mem_iff.mpr (List.mem_flatMap.mpr ⟨d, hd, hp⟩))
    exact (hnumbers d' hd').points p hp'
  · intro c hc
    obtain ⟨d', hd', hc'⟩ := List.mem_flatMap.mp
      (h.cuts.mem_iff.mpr (List.mem_flatMap.mpr ⟨d, hd, hc⟩))
    exact (hnumbers d' hd').cuts c hc'

/-! ## One merge -/

namespace Store

/-- Items of the wrong dimension are the only ones that are refused. -/
theorem checkDeltas_cases (s : Store α) (deltas : List (Delta α)) :
    s.checkDeltas deltas = .ok () ∨ ∃ why, s.checkDeltas deltas = .error (.mismatched why) := by
  have hforM : ∀ {β : Type} (f : β → Except Failure Unit),
      (∀ b, f b = .ok () ∨ ∃ why, f b = .error (.mismatched why)) → ∀ bs : List β,
      bs.forM f = .ok () ∨ ∃ why, bs.forM f = .error (.mismatched why) := by
    intro β f hf bs
    induction bs with
    | nil => exact .inl rfl
    | cons b bs ih =>
      change (f b >>= fun _ => bs.forM f) = _ ∨ ∃ why, (f b >>= fun _ => bs.forM f) = _
      rcases hf b with h | ⟨why, h⟩
      · rw [h, ok_bind]
        exact ih
      · exact .inr ⟨why, by rw [h, error_bind]⟩
  refine hforM _ (fun d => ?_) deltas
  have hpoints := hforM s.checkPoint (fun p => by unfold checkPoint; split <;> simp) d.points
  have hcuts := hforM s.checkCut (fun c => by unfold checkCut; split <;> simp) d.cuts
  rcases hpoints with h | ⟨why, h⟩
  · rw [h, ok_bind]
    exact hcuts
  · exact .inr ⟨why, by rw [h, error_bind]⟩

variable [Scalar α]

/-- Whether deltas hold something that a store does not have. -/
def adds (s : Store α) (deltas : List (Delta α)) : Bool :=
  !(s.newPoints deltas).isEmpty || !(s.newCuts deltas).isEmpty

/-- A store with deltas joined into it; its votes stay if nothing is new. -/
def united (s : Store α) (deltas : List (Delta α)) : Store α :=
  { s with
    points := s.points ++ s.newPoints deltas
    cuts := s.cuts ++ s.newCuts deltas
    votes := if s.adds deltas then none else s.votes }

theorem merge_perform (s : Store α) (deltas : List (Delta α)) :
    (merge deltas).perform s = match s.checkDeltas deltas with
      | .ok _ => (.ok (s.adds deltas), s.united deltas)
      | .error e => (.error e, s) := by
  unfold merge
  simp only [Transition.perform_bind, Transition.perform_get, Transition.perform_outcome]
  cases s.checkDeltas deltas <;> rfl

theorem merge_ok {s : Store α} {deltas : List (Delta α)}
    (h : ∀ d ∈ deltas, d.HasDimension s.stateCount) :
    (merge deltas).perform s = (.ok (s.adds deltas), s.united deltas) := by
  rw [merge_perform, checkDeltas_eq_ok.mpr h]

/-- A merge that is refused leaves a store as it was. -/
theorem merge_refused {s : Store α} {deltas : List (Delta α)}
    (h : ¬∀ d ∈ deltas, d.HasDimension s.stateCount) :
    ∃ why, (merge deltas).perform s = (.error (.mismatched why), s) := by
  rcases s.checkDeltas_cases deltas with hok | ⟨why, herror⟩
  · exact absurd (checkDeltas_eq_ok.mp hok) h
  · exact ⟨why, by rw [merge_perform, herror]⟩

/-- What a merge makes of a store.  The points and cuts of the deltas come to its end that
it does not have, each once and in increasing order.  Whether there are any is the answer,
and it decides whether the votes are dropped. -/
structure IsMerged (s : Store α) (deltas : List (Delta α)) (changed : Bool) (s' : Store α) :
    Prop where
  stateCount : s'.stateCount = s.stateCount
  points : ∃ new, s'.points = s.points ++ new ∧ IsJoin id s.points (deltas.map Delta.points) new
  cuts : ∃ new, s'.cuts = s.cuts ++ new ∧ IsJoin Cut.sortKey s.cuts (deltas.map Delta.cuts) new
  changed_iff : changed = true ↔ s'.points ≠ s.points ∨ s'.cuts ≠ s.cuts
  votes : s'.votes = if changed then none else s.votes

/-- Whether two stores are equal, item by item. -/
structure Agrees (s s' : Store α) : Prop where
  stateCount : s.stateCount = s'.stateCount
  cuts : AreEqual s.cuts s'.cuts
  points : AreEqual s.points s'.points

/-- Whether two stores have the same points and the same cuts, in any order. -/
structure HasSameItems (s s' : Store α) : Prop where
  points : ∀ p, s.points.contains p = s'.points.contains p
  cuts : ∀ c, s.cuts.contains c = s'.cuts.contains c

theorem Agrees.refl (s : Store α) : s.Agrees s :=
  ⟨rfl, .refl _, .refl _⟩

/-- Whether a store has no entry that differs from itself. -/
structure IsNumeric (s : Store α) : Prop where
  points : ∀ p ∈ s.points, AreNumbers p
  cuts : ∀ c ∈ s.cuts, AreNumbers c.sortKey

/-- Stores of numbers that are equal item by item are equal by value. -/
theorem Agrees.beq {s s' : Store α} (h : s.Agrees s') (hs : s.IsNumeric) : (s == s') = true := by
  have hcuts := h.cuts.beq fun c hc => beq_self_of_areNumbers (hs.cuts c hc)
  have hpoints := h.points.beq fun p hp => beq_self_of_areNumbers (hs.points p hp)
  show (s.stateCount == s'.stateCount && s.cuts == s'.cuts && s.points == s'.points) = true
  rw [hcuts, hpoints, h.stateCount]
  simp

variable [Scalar.IsOrdered α] {s s' : Store α} {deltas deltas' : List (Delta α)}

omit [Scalar.IsOrdered α] in
theorem points_beq_self (h : ∀ d ∈ deltas, d.IsNumeric) :
    ∀ ps ∈ deltas.map Delta.points, ∀ p ∈ ps, (p == p) = true := by
  intro ps hps p hp
  obtain ⟨d, hd, rfl⟩ := List.mem_map.mp hps
  exact beq_self_of_areNumbers ((h d hd).points p hp)

omit [Scalar.IsOrdered α] in
theorem cuts_beq_self (h : ∀ d ∈ deltas, d.IsNumeric) :
    ∀ cs ∈ deltas.map Delta.cuts, ∀ c ∈ cs, (c == c) = true := by
  intro cs hcs c hc
  obtain ⟨d, hd, rfl⟩ := List.mem_map.mp hcs
  exact (Cut.sortKey_beq c c).symm.trans (beq_self_of_areNumbers ((h d hd).cuts c hc))

omit [Scalar.IsOrdered α] in
theorem adds_eq_false :
    s.adds deltas = false ↔ s.newPoints deltas = [] ∧ s.newCuts deltas = [] := by
  simp [adds]

theorem united_isMerged (h : ∀ d ∈ deltas, d.IsNumeric) :
    s.IsMerged deltas (s.adds deltas) (s.united deltas) where
  stateCount := rfl
  points := ⟨s.newPoints deltas, rfl, newPoints_isJoin h⟩
  cuts := ⟨s.newCuts deltas, rfl, newCuts_isJoin h⟩
  changed_iff := by
    rw [← Bool.not_eq_false, adds_eq_false, not_and_or]
    simp [united]
  votes := rfl

theorem IsNumeric.united (hs : s.IsNumeric) (h : ∀ d ∈ deltas, d.IsNumeric) :
    (s.united deltas).IsNumeric where
  points p hp := by
    rcases List.mem_append.mp hp with hp | hp
    · exact hs.points p hp
    · obtain ⟨ps, hps, hp⟩ := (newPoints_isJoin (s := s) h).origin p hp
      obtain ⟨d, hd, rfl⟩ := List.mem_map.mp hps
      exact (h d hd).points p hp
  cuts c hc := by
    rcases List.mem_append.mp hc with hc | hc
    · exact hs.cuts c hc
    · obtain ⟨cs, hcs, hc⟩ := (newCuts_isJoin (s := s) h).origin c hc
      obtain ⟨d, hd, rfl⟩ := List.mem_map.mp hcs
      exact (h d hd).cuts c hc

/-! ## The same items in other deltas -/

/-- Into equal stores, deltas with the same items are merged with equal results. -/
theorem Agrees.united (h : s.Agrees s') (hsame : HoldSame deltas deltas')
    (hnumbers : ∀ d ∈ deltas, d.IsNumeric) (hnumbers' : ∀ d ∈ deltas', d.IsNumeric) :
    s.adds deltas = s'.adds deltas' ∧ (s.united deltas).Agrees (s'.united deltas') := by
  have hpoints := (newPoints_isJoin (s := s) hnumbers).unique (fun _ _ => rfl)
    (newPoints_isJoin (s := s') hnumbers') (points_beq_self hnumbers) (points_beq_self hnumbers')
    h.points.contains (HoldSame.any_contains hsame.points)
  have hcuts := (newCuts_isJoin (s := s) hnumbers).unique Cut.sortKey_beq
    (newCuts_isJoin (s := s') hnumbers') (cuts_beq_self hnumbers) (cuts_beq_self hnumbers')
    h.cuts.contains (HoldSame.any_contains hsame.cuts)
  constructor
  · rw [Bool.eq_iff_iff, ← Bool.not_eq_false, ← Bool.not_eq_false, adds_eq_false, adds_eq_false]
    simp only [← List.length_eq_zero_iff, hpoints.length_eq, hcuts.length_eq]
  · exact ⟨h.stateCount, h.cuts.append (hcuts.imp fun _ _ => .inr),
      h.points.append (hpoints.imp fun _ _ => .inr)⟩

/-! ## The same items once more -/

/-- Merged once more, the same deltas add nothing. -/
theorem united_again (h : ∀ d ∈ deltas, d.IsNumeric) :
    (s.united deltas).adds deltas = false ∧ (s.united deltas).united deltas = s.united deltas := by
  have hpoints := (newPoints_isJoin (s := s) h).again (newPoints_isJoin (s := s.united deltas) h)
    (points_beq_self h)
  have hcuts := (newCuts_isJoin (s := s) h).again (newCuts_isJoin (s := s.united deltas) h)
    (cuts_beq_self h)
  have hadds := adds_eq_false.mpr ⟨hpoints, hcuts⟩
  refine ⟨hadds, ?_⟩
  rw [Store.united, hadds, hpoints, hcuts]
  simp

/-! ## One delta after another -/

/-- The points and cuts of a store after a merge are those it had and those of the
deltas. -/
theorem united_contains (h : ∀ d ∈ deltas, d.IsNumeric) :
    (∀ p, (s.united deltas).points.contains p
      = (s.points.contains p || deltas.any fun d => d.points.contains p)) ∧
    ∀ c, (s.united deltas).cuts.contains c
      = (s.cuts.contains c || deltas.any fun d => d.cuts.contains c) := by
  constructor
  · intro p
    rw [united, (newPoints_isJoin h).union, List.any_map]
    rfl
  · intro c
    rw [united, (newCuts_isJoin h).union, List.any_map]
    rfl

/-- Merged one after another, deltas lead to the same sets as together. -/
theorem merge_each (hdim : ∀ d ∈ deltas, d.HasDimension s.stateCount)
    (h : ∀ d ∈ deltas, d.IsNumeric) :
    ∃ s', (deltas.forM fun d => discard (merge [d])).perform s = (.ok ⟨⟩, s') ∧
      s'.HasSameItems (s.united deltas) := by
  suffices hrun : ∃ s', (deltas.forM fun d => discard (merge [d])).perform s = (.ok ⟨⟩, s') ∧
      (∀ p, s'.points.contains p
        = (s.points.contains p || deltas.any fun d => d.points.contains p)) ∧
      ∀ c, s'.cuts.contains c = (s.cuts.contains c || deltas.any fun d => d.cuts.contains c) by
    obtain ⟨s', hperform, hpoints, hcuts⟩ := hrun
    exact ⟨s', hperform, fun p => (hpoints p).trans ((united_contains h).1 p).symm,
      fun c => (hcuts c).trans ((united_contains h).2 c).symm⟩
  induction deltas generalizing s with
  | nil => exact ⟨s, rfl, by simp, by simp⟩
  | cons d deltas ih =>
    rw [List.forall_mem_cons] at hdim h
    have hfirst : (discard (merge [d]) : Transition (Store α) PUnit).perform s
        = (.ok ⟨⟩, s.united [d]) :=
      Transition.perform_discard_eq_ok.mpr ⟨_, merge_ok (by simpa using hdim.1)⟩
    obtain ⟨hone, hone'⟩ := united_contains (s := s) (List.forall_mem_singleton.mpr h.1)
    obtain ⟨s', hperform, hpoints, hcuts⟩ := ih (s := s.united [d]) hdim.2 h.2
    refine ⟨s', ?_, fun p => ?_, fun c => ?_⟩
    · show ((discard (merge [d]) : Transition (Store α) PUnit) >>= fun _ => _).perform s = _
      rw [Transition.perform_bind_ok hfirst]
      exact hperform
    · rw [hpoints, hone]
      simp [Bool.or_assoc]
    · rw [hcuts, hone']
      simp [Bool.or_assoc]

/-! ## Merges side by side -/

theorem merge_related (hsame : HoldSame deltas deltas') (h : ∀ d ∈ deltas, d.IsNumeric) :
    Transition.Related (Store.Agrees (α := α)) Eq (fun _ _ => True) (merge deltas)
      (merge deltas') := by
  intro s s' hs
  by_cases hdim : ∀ d ∈ deltas, d.HasDimension s.stateCount
  · have hdim' := hsame.hasDimension hdim
    rw [hs.stateCount] at hdim'
    obtain ⟨hadds, hunited⟩ := hs.united hsame h (hsame.isNumeric h)
    rw [merge_ok hdim, merge_ok hdim']
    exact ⟨.ok hadds, hunited⟩
  · have hdim' : ¬∀ d ∈ deltas', d.HasDimension s'.stateCount := by
      rw [← hs.stateCount]
      exact fun hall => hdim (hsame.symm.hasDimension hall)
    obtain ⟨why, hrefused⟩ := merge_refused hdim
    obtain ⟨why', hrefused'⟩ := merge_refused hdim'
    rw [hrefused, hrefused']
    exact ⟨.error trivial, hs⟩

omit [Scalar.IsOrdered α] in
theorem recount_related (sense : Sense) :
    Transition.Related (Store.Agrees (α := α)) Eq (fun _ _ => True) (modify (recount sense))
      (modify (recount sense)) :=
  fun _ _ hs => ⟨.ok rfl, hs.stateCount, hs.cuts, hs.points⟩

end Store

/-! ## All stores of a model -/

/-- Whether grids of deltas hold the same points and the same cuts for every pair. -/
structure Grid.HoldSame (grids grids' : List (Grid (Delta α))) : Prop where
  entries : ∀ t i, (∀ g ∈ grids, ∃ d, g.get? t i = some d) ↔ ∀ g ∈ grids', ∃ d, g.get? t i = some d
  items : ∀ t i, Multistage.HoldSame (Grid.deltasAt grids t i) (Grid.deltasAt grids' t i)

/-- Grids in another order hold the same. -/
theorem Grid.HoldSame.of_perm {grids grids' : List (Grid (Delta α))} (h : grids.Perm grids') :
    Grid.HoldSame grids grids' where
  entries _ _ := ⟨fun hall g hg => hall g (h.mem_iff.mpr hg),
    fun hall g hg => hall g (h.mem_iff.mp hg)⟩
  items _ _ := .of_perm (h.filterMap _)

theorem Grid.deltasAt_isNumeric [Scalar α] {grids : List (Grid (Delta α))}
    (h : ∀ g ∈ grids, ∀ t i d, g.get? t i = some d → d.IsNumeric) (t i : Nat) :
    ∀ d ∈ Grid.deltasAt grids t i, d.IsNumeric := by
  intro d hd
  obtain ⟨g, hg, hget⟩ := List.mem_filterMap.mp hd
  exact h g hg t i d hget

theorem Grid.mapM_entry_alike {grids grids' : List (Grid (Delta α))}
    (hsame : Grid.HoldSame grids grids') (t i : Nat) :
    Transition.Alike (fun ds ds' => ds = Grid.deltasAt grids t i ∧ ds' = Grid.deltasAt grids' t i)
      (fun _ _ => True) (grids.mapM fun g => g.entry t i) (grids'.mapM fun g => g.entry t i) := by
  by_cases hall : ∀ g ∈ grids, ∃ d, g.get? t i = some d
  · have hall' := (hsame.entries t i).mp hall
    rw [Grid.entries_eq_ok.mpr ⟨hall, rfl⟩, Grid.entries_eq_ok.mpr ⟨hall', rfl⟩]
    exact .ok ⟨rfl, rfl⟩
  · have hall' : ¬∀ g ∈ grids', ∃ d, g.get? t i = some d :=
      fun h => hall ((hsame.entries t i).mpr h)
    cases hrun : grids.mapM fun g => g.entry t i with
    | ok ds => exact absurd (Grid.entries_eq_ok.mp hrun).1 hall
    | error e =>
      cases hrun' : grids'.mapM fun g => g.entry t i with
      | ok ds => exact absurd (Grid.entries_eq_ok.mp hrun').1 hall'
      | error e' => exact .error trivial

/-- Whether the entries of two grids are related, pair by pair. -/
def Grid.Pointwise {β : Type} (R : β → β → Prop) (g g' : Grid β) : Prop :=
  ∀ t i, Option.Rel R (g.get? t i) (g'.get? t i)

theorem Grid.Pointwise.put {β : Type} {R : β → β → Prop} {g g' : Grid β}
    (h : Grid.Pointwise R g g') (t i : Nat) {b b' : β} (hb : R b b') :
    Grid.Pointwise R (g.put t i b) (g'.put t i b') := by
  intro t' i'
  rw [Grid.put_eq_mapEntries, Grid.put_eq_mapEntries, Grid.get?_mapEntries, Grid.get?_mapEntries]
  have hentry := h t' i'
  generalize g.get? t' i' = c, g'.get? t' i' = c' at hentry
  cases hentry with
  | none => exact .none
  | some hc =>
    simp only [Option.map_some]
    split
    · exact .some hb
    · exact .some hc

namespace Model

variable [Scalar α]

/-- Whether two models are equal, their stores item by item. -/
structure Agrees (m m' : Model α) : Prop where
  stores : Grid.Pointwise Store.Agrees m.stores m'.stores
  others : { m' with stores := m.stores } = m

theorem Agrees.refl (m : Model α) : m.Agrees m where
  stores t i := by
    cases m.stores.get? t i with
    | none => exact .none
    | some s => exact .some (.refl s)
  others := rfl

theorem Agrees.configuration_eq {m m' : Model α} (h : m.Agrees m') :
    m'.configuration = m.configuration :=
  (congrArg Model.configuration h.others :)

theorem onStore_related {β : Type} {E : Failure → Failure → Prop} (hE : E .outOfRange .outOfRange)
    (t i : Nat) {op op' : Transition (Store α) β}
    (hop : Transition.Related Store.Agrees Eq E op op') :
    Transition.Related Agrees Eq E (onStore t i op) (onStore t i op') := by
  intro m m' hm
  unfold onStore
  rw [Transition.perform_of, Transition.perform_of]
  have hentry := hm.stores t i
  generalize hs : m.stores.get? t i = s, hs' : m'.stores.get? t i = s' at hentry
  cases hentry with
  | none => exact ⟨.error hE, hm⟩
  | @some s s' hagrees =>
    obtain ⟨hr, hstore⟩ := hop s s' hagrees
    refine ⟨hr, hm.stores.put t i hstore, ?_⟩
    rw [← hm.others]

variable [Scalar.IsOrdered α] {grids grids' : List (Grid (Delta α))}

theorem mergeAt_related (t i : Nat) {deltas deltas' : List (Delta α)}
    (hsame : HoldSame deltas deltas') (h : ∀ d ∈ deltas, d.IsNumeric) :
    Transition.Related Agrees Eq (fun _ _ => True) (mergeAt t i deltas) (mergeAt t i deltas') := by
  intro m m' hm
  unfold mergeAt
  rw [Transition.perform_bind_ok (Transition.perform_get m),
    Transition.perform_bind_ok (Transition.perform_get m'), hm.configuration_eq]
  refine onStore_related trivial t i ?_ m m' hm
  refine (Store.merge_related hsame h).bind fun b b' hb => ?_
  exact (Store.recount_related _).bind fun _ _ _ => .pure hb

/-- Grids with the same points and cuts are merged into equal models with equal results,
or both fail. -/
theorem mergeAll_related (hsame : Grid.HoldSame grids grids')
    (h : ∀ g ∈ grids, ∀ t i d, g.get? t i = some d → d.IsNumeric) :
    Transition.Related (Agrees (α := α)) Eq (fun _ _ => True) (mergeAll grids)
      (mergeAll grids') := by
  intro m m' hm
  unfold mergeAll stageCount markovCount
  rw [Transition.perform_bind_ok (Transition.perform_get m),
    Transition.perform_bind_ok (Transition.perform_get m'), hm.configuration_eq]
  refine Transition.Related.forM (fun e _ => ?_) m m' hm
  refine (Transition.Related.outcome (Grid.mapM_entry_alike hsame e.1 e.2)).bind ?_
  rintro _ _ ⟨rfl, rfl⟩
  exact (mergeAt_related e.1 e.2 (hsame.items e.1 e.2) (Grid.deltasAt_isNumeric h e.1 e.2)).discard

end Model

/-! ## The union of what the workers found -/

/-- Merging is a union of sets.  With items of the right dimension it adds the new ones in
increasing order; other deltas with the same items lead to an equal store; a second merge
changes nothing; and deltas merged one after another lead to the same sets.  With an item of
the wrong dimension it changes nothing.  Merging into all stores of a model does not depend
on the arrangement of the items either. -/
theorem merge_unites {α : Type} [Scalar α] [Scalar.IsOrdered α] :
    (∀ (s : Store α) (deltas : List (Delta α)), (∀ d ∈ deltas, d.IsNumeric) →
      ((∀ d ∈ deltas, d.HasDimension s.stateCount) →
        ∃ changed s', (Store.merge deltas).perform s = (.ok changed, s') ∧
          s.IsMerged deltas changed s' ∧
          (∀ deltas', HoldSame deltas deltas' →
            ∃ s'', (Store.merge deltas').perform s = (.ok changed, s'') ∧ s'.Agrees s'' ∧
              (s.IsNumeric → (s' == s'') = true)) ∧
          (Store.merge deltas).perform s' = (.ok false, s') ∧
          ∃ s'', (deltas.forM fun d => discard (Store.merge [d])).perform s = (.ok ⟨⟩, s'') ∧
            s''.HasSameItems s') ∧
      ((¬∀ d ∈ deltas, d.HasDimension s.stateCount) →
        ∃ why, (Store.merge deltas).perform s = (.error (.mismatched why), s))) ∧
    ∀ (m : Model α) (grids grids' : List (Grid (Delta α))),
      (∀ g ∈ grids, ∀ t i d, g.get? t i = some d → d.IsNumeric) → Grid.HoldSame grids grids' →
        Transition.Alike Eq (fun _ _ => True) ((Model.mergeAll grids).perform m).1
          ((Model.mergeAll grids').perform m).1 ∧
        ((Model.mergeAll grids).perform m).2.Agrees ((Model.mergeAll grids').perform m).2 := by
  refine ⟨fun s deltas h => ⟨fun hdim => ?_, Store.merge_refused⟩, fun m grids grids' h hsame => ?_⟩
  · refine ⟨s.adds deltas, s.united deltas, Store.merge_ok hdim, Store.united_isMerged h,
      fun deltas' hsame => ?_, ?_, Store.merge_each hdim h⟩
    · obtain ⟨hadds, hagrees⟩ := (Store.Agrees.refl s).united hsame h (hsame.isNumeric h)
      refine ⟨s.united deltas', ?_, hagrees, fun hs => hagrees.beq (hs.united h)⟩
      rw [hadds, Store.merge_ok (hsame.hasDimension hdim)]
    · obtain ⟨hadds, hunited⟩ := Store.united_again (s := s) h
      rw [Store.merge_ok (s := s.united deltas) hdim, hadds, hunited]
  · exact Model.mergeAll_related hsame h m m (.refl m)

/-- Among doubles a cut and a point that differ from old ones in the sign of a zero are not
new, in whatever order they come. -/
theorem merge_unites_zeros :
    let s : Store Float := ⟨1, [⟨0.0, [1.0]⟩], [[0.0]], none⟩
    let deltas : List (Delta Float) :=
      [⟨[[2.0]], [⟨-0.0, [1.0]⟩]⟩, ⟨[[-0.0], [2.0]], [⟨3.0, [1.0]⟩]⟩]
    (∀ d ∈ deltas, d.IsNumeric) ∧ (∀ d ∈ deltas, d.HasDimension s.stateCount) ∧
      ∃ changed s' s'', (Store.merge deltas).perform s = (.ok changed, s') ∧
        s.IsMerged deltas changed s' ∧
        (Store.merge deltas.reverse).perform s = (.ok changed, s'') ∧ (s' == s'') = true := by
  intro s deltas
  have hnumbers : ∀ d ∈ deltas, d.IsNumeric := by
    simp only [deltas, List.forall_mem_cons]
    refine ⟨⟨?_, ?_⟩, ⟨?_, ?_⟩, by simp⟩ <;> simp [AreNumbers, Cut.sortKey] <;> decide
  have hdim : ∀ d ∈ deltas, d.HasDimension s.stateCount := by
    simp only [deltas, s, List.forall_mem_cons]
    refine ⟨⟨?_, ?_⟩, ⟨?_, ?_⟩, by simp⟩ <;> simp
  have hs : s.IsNumeric := by
    constructor <;> simp [s, AreNumbers, Cut.sortKey] <;> decide
  obtain ⟨changed, s', hmerge, hmerged, hsame, -⟩ := (merge_unites.1 s deltas hnumbers).1 hdim
  obtain ⟨s'', hmerge', -, hbeq⟩ := hsame deltas.reverse (.of_perm (List.reverse_perm _).symm)
  exact ⟨hnumbers, hdim, changed, s', s'', hmerge, hmerged, hmerge', hbeq hs⟩

end Multistage
