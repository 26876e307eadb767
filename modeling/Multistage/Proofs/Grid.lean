/-
Multistage.Proofs.Grid — entries of grids.

A grid that fits has an entry for every stage and Markov state in range and
none elsewhere, and two grids that fit are equal if their entries are.
-/
import Mathlib.Data.List.Nodup
import Multistage.Grid
import Multistage.Proofs.Except

namespace Multistage

namespace Grid

variable {β γ : Type}

/-! ## Single entries -/

theorem get?_eq_some {g : Grid β} {t i : Nat} {b : β} :
    g.get? t i = some b ↔ ∃ row, g[t]? = some row ∧ row[i]? = some b :=
  Option.bind_eq_some_iff

theorem entry_eq_ok {g : Grid β} {t i : Nat} {b : β} :
    g.entry t i = .ok b ↔ g.get? t i = some b := by
  unfold entry
  cases g.get? t i with
  | some a => simp
  | none => simp

/-- An entry of a grid after a replacement is the new one or was there before. -/
theorem get?_put {g : Grid β} {t i t' i' : Nat} {b c : β}
    (h : (g.put t i b).get? t' i' = some c) :
    (t' = t ∧ i' = i ∧ c = b) ∨ g.get? t' i' = some c := by
  obtain ⟨row, hrow, hc⟩ := get?_eq_some.mp h
  rw [put, List.getElem?_modify] at hrow
  obtain ⟨old, hold, rfl⟩ := Option.map_eq_some_iff.mp hrow
  by_cases ht : t = t'
  · rw [if_pos ht, List.getElem?_set] at hc
    split at hc
    · rename_i hi
      split at hc
      · exact .inl ⟨ht.symm, hi.symm, (Option.some.inj hc).symm⟩
      · cases hc
    · exact .inr (get?_eq_some.mpr ⟨old, hold, hc⟩)
  · rw [if_neg ht] at hc
    exact .inr (get?_eq_some.mpr ⟨old, hold, hc⟩)

/-- A grid beside itself with one entry replaced. -/
theorem forall₂_put {R : β → β → Prop} (hR : ∀ b, R b b) {g : Grid β} {t i : Nat} {b b' : β}
    (h : g.get? t i = some b) (hb : R b b') :
    List.Forall₂ (List.Forall₂ R) g (g.put t i b') := by
  obtain ⟨row, hrow, hi⟩ := get?_eq_some.mp h
  have hput : List.Forall₂ R row (row.set i b') := by
    refine List.forall₂_iff_get.mpr ⟨List.length_set.symm, fun j hj hj' => ?_⟩
    rw [List.get_eq_getElem, List.get_eq_getElem, List.getElem_set]
    split
    · next hij =>
      subst hij
      rw [(List.getElem?_eq_some_iff.mp hi).2]
      exact hb
    · exact hR _
  refine List.forall₂_iff_get.mpr ⟨(List.length_modify ..).symm, fun s hs hs' => ?_⟩
  rw [List.get_eq_getElem, List.get_eq_getElem]
  simp only [put, List.getElem_modify]
  split
  · next hst =>
    subst hst
    rw [(List.getElem?_eq_some_iff.mp hrow).2]
    exact hput
  · exact List.forall₂_same.mpr fun b _ => hR b
/-! ## Grids that fit -/

theorem fits_iff {g : Grid β} {stages states : Nat} :
    g.fits stages states = true ↔ g.length = stages ∧ ∀ row ∈ g, row.length = states := by
  simp [fits]

theorem get?_isSome {g : Grid β} {stages states t i : Nat} (h : g.fits stages states = true) :
    (∃ b, g.get? t i = some b) ↔ t < stages ∧ i < states := by
  obtain ⟨rfl, hrows⟩ := fits_iff.mp h
  constructor
  · rintro ⟨b, hb⟩
    obtain ⟨row, hrow, hi⟩ := get?_eq_some.mp hb
    obtain ⟨ht, rfl⟩ := List.getElem?_eq_some_iff.mp hrow
    obtain ⟨hi, -⟩ := List.getElem?_eq_some_iff.mp hi
    exact ⟨ht, lt_of_lt_of_eq hi (hrows _ (List.getElem_mem ht))⟩
  · rintro ⟨ht, hi⟩
    have hi' : i < g[t].length := lt_of_lt_of_eq hi (hrows _ (List.getElem_mem ht)).symm
    exact ⟨g[t][i], get?_eq_some.mpr ⟨g[t], List.getElem?_eq_getElem ht,
      List.getElem?_eq_getElem hi'⟩⟩

/-! ## Grids of functions -/

theorem forall₂_range {R : Nat → β → Prop} {n : Nat} {xs : List β} :
    List.Forall₂ R (List.range n) xs ↔ xs.length = n ∧ ∀ i b, xs[i]? = some b → R i b := by
  rw [List.forall₂_iff_get]
  simp only [List.length_range, List.get_eq_getElem, List.getElem_range]
  constructor
  · rintro ⟨rfl, h⟩
    refine ⟨rfl, fun i b hb => ?_⟩
    obtain ⟨hi, rfl⟩ := List.getElem?_eq_some_iff.mp hb
    exact h i hi hi
  · rintro ⟨rfl, h⟩
    exact ⟨rfl, fun i _ hi => h i _ (List.getElem?_eq_getElem hi)⟩

theorem ofFn_eq_some {stages states : Nat} {f : Nat → Nat → β} {t i : Nat} {b : β}
    (h : (ofFn stages states f).get? t i = some b) : b = f t i := by
  obtain ⟨row, hrow, hb⟩ := get?_eq_some.mp h
  rw [ofFn, List.getElem?_map, Option.map_eq_some_iff] at hrow
  obtain ⟨t', ht', rfl⟩ := hrow
  rw [List.getElem?_map, Option.map_eq_some_iff] at hb
  obtain ⟨i', hi', rfl⟩ := hb
  obtain ⟨ht, rfl⟩ := List.getElem?_eq_some_iff.mp ht'
  obtain ⟨hi, rfl⟩ := List.getElem?_eq_some_iff.mp hi'
  rw [List.getElem_range, List.getElem_range]

@[simp] theorem fits_ofFn (stages states : Nat) (f : Nat → Nat → β) :
    (ofFn stages states f).fits stages states = true := by
  refine fits_iff.mpr ⟨by simp [ofFn], fun row hrow => ?_⟩
  obtain ⟨t, -, rfl⟩ := List.mem_map.mp hrow
  simp

theorem fits_zipWith {δ : Type} {f : β → γ → δ} {g : Grid β} {h : Grid γ} {stages states : Nat}
    (hg : g.fits stages states = true) (hh : h.fits stages states = true) :
    fits (List.zipWith (List.zipWith f) g h : Grid δ) stages states = true := by
  obtain ⟨hlen, hrows⟩ := fits_iff.mp hg
  obtain ⟨hlen', hrows'⟩ := fits_iff.mp hh
  refine fits_iff.mpr ⟨by simp [hlen, hlen'], fun row hrow => ?_⟩
  obtain ⟨t, ht, rfl⟩ := List.getElem_of_mem hrow
  simp [hrows, hrows']

/-- A grid of a function that may fail fits, and its entries are the values of
the function. -/
theorem ofFnM_eq_ok {stages states : Nat} {f : Nat → Nat → Except Failure β} {g : Grid β} :
    ofFnM stages states f = .ok g
      ↔ g.fits stages states = true ∧ ∀ t i b, g.get? t i = some b → f t i = .ok b := by
  rw [ofFnM, mapM_eq_ok, forall₂_range, fits_iff]
  simp only [mapM_eq_ok, forall₂_range]
  constructor
  · rintro ⟨hlen, hrows⟩
    refine ⟨⟨hlen, fun row hrow => ?_⟩, fun t i b hb => ?_⟩
    · obtain ⟨t, ht, rfl⟩ := List.getElem_of_mem hrow
      exact (hrows t _ (List.getElem?_eq_getElem ht)).1
    · obtain ⟨row, hrow, hb⟩ := get?_eq_some.mp hb
      exact (hrows t row hrow).2 i b hb
  · rintro ⟨⟨hlen, hrows⟩, hentries⟩
    exact ⟨hlen, fun t row hrow => ⟨hrows row (List.mem_of_getElem? hrow),
      fun i b hb => hentries t i b (get?_eq_some.mpr ⟨row, hrow, hb⟩)⟩⟩

/-! ## Changes of all entries -/

/-- The grid with every entry changed. -/
def mapEntries (f : Nat → Nat → β → γ) (g : Grid β) : Grid γ :=
  g.mapIdx fun t row => row.mapIdx (f t)

@[simp] theorem get?_mapEntries (f : Nat → Nat → β → γ) (g : Grid β) (t i : Nat) :
    (g.mapEntries f).get? t i = (g.get? t i).map (f t i) := by
  unfold get? mapEntries
  rw [List.getElem?_mapIdx]
  cases g[t]? with
  | none => rfl
  | some row => simp

@[simp] theorem fits_mapEntries (f : Nat → Nat → β → γ) (g : Grid β) (stages states : Nat) :
    (g.mapEntries f).fits stages states = g.fits stages states := by
  rw [Bool.eq_iff_iff, fits_iff, fits_iff, List.forall_mem_iff_getElem,
    List.forall_mem_iff_getElem]
  simp [mapEntries]

theorem mapEntries_congr {f h : Nat → Nat → β → γ} {g : Grid β}
    (hfh : ∀ t i b, g.get? t i = some b → f t i b = h t i b) :
    g.mapEntries f = g.mapEntries h := by
  refine List.ext_getElem? fun t => ?_
  simp only [mapEntries, List.getElem?_mapIdx]
  cases hrow : g[t]? with
  | none => rfl
  | some row =>
    refine congrArg some (List.ext_getElem? fun i => ?_)
    simp only [List.getElem?_mapIdx]
    cases hb : row[i]? with
    | none => rfl
    | some b => exact congrArg some (hfh t i b (get?_eq_some.mpr ⟨row, hrow, hb⟩))

@[simp] theorem mapEntries_id (g : Grid β) : (g.mapEntries fun _ _ b => b) = g := by
  refine List.ext_getElem? fun t => ?_
  simp only [mapEntries, List.getElem?_mapIdx]
  cases g[t]? with
  | none => rfl
  | some row => exact congrArg some (List.ext_getElem? fun i => by simp)

theorem mapEntries_mapEntries {δ : Type} (f : Nat → Nat → β → γ) (h : Nat → Nat → γ → δ)
    (g : Grid β) : (g.mapEntries f).mapEntries h = g.mapEntries fun t i b => h t i (f t i b) := by
  simp [mapEntries, List.mapIdx_mapIdx, Function.comp_def]

theorem put_mapEntries (f : Nat → Nat → β → γ) (g : Grid β) (t i : Nat) (c : γ) :
    (g.mapEntries f).put t i c
      = g.mapEntries fun t' i' b => if (t', i') = (t, i) then c else f t' i' b := by
  refine List.ext_getElem? fun t' => ?_
  simp only [put, mapEntries, List.getElem?_modify, List.getElem?_mapIdx]
  cases g[t']? with
  | none => rfl
  | some row =>
    refine congrArg some ?_
    by_cases ht : t = t'
    · subst ht
      refine List.ext_getElem? fun i' => ?_
      simp only [if_true, List.getElem?_set, List.getElem?_mapIdx, List.length_mapIdx]
      by_cases hi : i = i'
      · subst hi
        by_cases hlt : i < row.length
        · simp [hlt]
        · simp [hlt]
      · simp [hi, Ne.symm hi]
    · simp [ht, Ne.symm ht]

theorem put_eq_mapEntries (g : Grid β) (t i : Nat) (c : β) :
    g.put t i c = g.mapEntries fun t' i' b => if (t', i') = (t, i) then c else b := by
  have h := put_mapEntries (fun _ _ b => b) g t i c
  rwa [mapEntries_id] at h

/-- A change of all entries that concerns one pair only. -/
theorem put_eq_mapEntries_of_get? {g : Grid β} {t i : Nat} {b : β} (h : g.get? t i = some b)
    {f : Nat → Nat → β → β} (hothers : ∀ t' i' c, (t', i') ≠ (t, i) → f t' i' c = c) :
    g.put t i (f t i b) = g.mapEntries f := by
  rw [put_eq_mapEntries]
  refine mapEntries_congr fun t' i' c hc => ?_
  split
  · rename_i hsame
    cases hsame
    rw [Option.some.inj (h.symm.trans hc)]
  · rename_i hother
    exact (hothers t' i' c hother).symm

@[simp] theorem fits_put (g : Grid β) (t i : Nat) (b : β) (stages states : Nat) :
    (g.put t i b).fits stages states = g.fits stages states := by
  rw [put_eq_mapEntries, fits_mapEntries]

theorem put_self {g : Grid β} {t i : Nat} {b : β} (h : g.get? t i = some b) : g.put t i b = g := by
  have hsame : ∀ t' i' c, g.get? t' i' = some c → (if (t', i') = (t, i) then b else c) = c := by
    intro t' i' c hc
    split
    · rename_i heq
      cases heq
      exact Option.some.inj (h.symm.trans hc)
    · rfl
  rw [put_eq_mapEntries, mapEntries_congr hsame, mapEntries_id]

theorem get?_put_self {g : Grid β} {t i : Nat} {b c : β} (h : g.get? t i = some b) :
    (g.put t i c).get? t i = some c := by
  rw [put_eq_mapEntries, get?_mapEntries, h]
  simp

theorem get?_put_of_ne {g : Grid β} {t i t' i' : Nat} (h : (t', i') ≠ (t, i)) (c : β) :
    (g.put t i c).get? t' i' = g.get? t' i' := by
  rw [put_eq_mapEntries, get?_mapEntries]
  cases g.get? t' i' with
  | none => rfl
  | some b => rw [Option.map_some, if_neg h]

/-! ## Pairs -/

theorem mem_pairs {stages states : Nat} {e : Nat × Nat} :
    e ∈ pairs stages states ↔ e.1 < stages ∧ e.2 < states := by
  obtain ⟨t, i⟩ := e
  simp [pairs]

theorem nodup_pairs (stages states : Nat) : (pairs stages states).Nodup := by
  refine List.nodup_flatMap.mpr ⟨fun t _ => ?_, ?_⟩
  · exact List.nodup_range.map fun i j h => (Prod.mk.inj h).2
  · refine List.nodup_range.imp fun h e he he' => ?_
    obtain ⟨i, -, rfl⟩ := List.mem_map.mp he
    obtain ⟨i', -, h'⟩ := List.mem_map.mp he'
    exact h (Prod.mk.inj h').1.symm

end Grid

end Multistage
