/-
Multistage.Proofs.Cut.Join — joining the findings of workers as sets.

Found items are joined to a list by adding those that the list does not have at its
end, each once and in increasing order (`IsJoin`).  Items are compared by value, so
that as a set the joined list is the union, and a list without equal items stays one
without.  Points and cuts are joined in the same way; they differ in their keys.
-/
import Multistage.Cut.Store
import Multistage.Proofs.Cut.Order

namespace Multistage

namespace Store

variable {β : Type} [BEq β] {seen : List β}

/-! ## New items -/

theorem mem_of_newItems {x : β} :
    ∀ {found xs : List β}, x ∈ newItems seen found xs → x ∈ found ∨ x ∈ xs
  | found, [], h => .inl h
  | found, y :: xs, h => by
    unfold newItems at h
    split at h
    · exact (mem_of_newItems h).imp id (List.mem_cons_of_mem y)
    · rcases mem_of_newItems h with h | h
      · rcases List.mem_append.mp h with h | h
        · exact .inl h
        · exact .inr (by simp [List.mem_singleton.mp h])
      · exact .inr (List.mem_cons_of_mem y h)

/-- No new item is an old one. -/
theorem newItems_fresh {xs : List β} :
    ∀ {found : List β}, (∀ x ∈ found, seen.contains x = false) →
      ∀ x ∈ newItems seen found xs, seen.contains x = false := by
  induction xs with
  | nil => exact fun h => h
  | cons y xs ih =>
    intro found h
    unfold newItems
    split
    · exact ih h
    · rename_i hy
      refine ih fun x hx => ?_
      rcases List.mem_append.mp hx with hx | hx
      · exact h x hx
      · rw [List.mem_singleton.mp hx]
        exact (Bool.or_eq_false_iff.mp (Bool.not_eq_true _ ▸ hy)).1

variable [PartialEquivBEq β]

/-- No two new items are equal. -/
theorem pairwise_newItems {xs : List β} :
    ∀ {found : List β}, found.Pairwise (fun x y => (x == y) = false) →
      (newItems seen found xs).Pairwise fun x y => (x == y) = false := by
  induction xs with
  | nil => exact fun h => h
  | cons y xs ih =>
    intro found h
    unfold newItems
    split
    · exact ih h
    · rename_i hy
      refine ih (List.pairwise_append.mpr ⟨h, List.pairwise_singleton _ _, fun x hx z hz => ?_⟩)
      rw [List.mem_singleton.mp hz, Bool.eq_false_iff]
      intro hxy
      refine hy ?_
      rw [List.contains_iff_exists_mem_beq.mpr ⟨x, hx, BEq.symm hxy⟩, Bool.or_true]

/-- Every item is an old one, or equal to a new one. -/
theorem contains_newItems (x : β) {xs : List β} : ∀ {found : List β},
    (seen.contains x || (newItems seen found xs).contains x)
      = (seen.contains x || found.contains x || xs.contains x) := by
  induction xs with
  | nil => simp [newItems]
  | cons y xs ih =>
    intro found
    unfold newItems
    split
    · rename_i hy
      rw [ih, List.contains_cons]
      cases hxy : x == y with
      | false => rfl
      | true =>
        rw [List.contains_congr hxy (l := seen), List.contains_congr hxy (l := found), hy]
        rfl
    · rw [ih, List.contains_append, List.contains_cons, List.contains_cons, List.contains_nil]
      simp only [Bool.or_assoc, Bool.or_false]

end Store

/-! ## Joins -/

section Join

variable {α β : Type} [Scalar α] [BEq β]

/-- The items that are added to a list when lists of found items are joined to it. -/
structure IsJoin (key : β → List α) (old : List β) (found : List (List β)) (new : List β) :
    Prop where
  increasing : new.Pairwise fun x y => lexBelow (key x) (key y) = true
  origin : ∀ x ∈ new, ∃ xs ∈ found, x ∈ xs
  fresh : ∀ x ∈ new, old.contains x = false
  union : ∀ x, (old ++ new).contains x = (old.contains x || found.any fun xs => xs.contains x)

variable [Scalar.IsOrdered α] {key : β → List α} {old new : List β} {found : List (List β)}

theorem isJoin_newItems [PartialEquivBEq β] (hkey : ∀ x y, (key x == key y) = (x == y))
    (hnumbers : ∀ xs ∈ found, ∀ x ∈ xs, AreNumbers (key x)) :
    IsJoin key old found (sortByKey key (Store.newItems old [] found.flatten)) := by
  have hperm : (sortByKey key (Store.newItems old [] found.flatten)).Perm
      (Store.newItems old [] found.flatten) := List.mergeSort_perm _ _
  have horigin : ∀ x ∈ Store.newItems old [] found.flatten, ∃ xs ∈ found, x ∈ xs := by
    intro x hx
    rcases Store.mem_of_newItems hx with hx | hx
    · exact absurd hx List.not_mem_nil
    · exact List.mem_flatten.mp hx
  constructor
  · refine pairwise_sortByKey (fun x hx => ?_) ?_
    · obtain ⟨xs, hxs, hx⟩ := horigin x hx
      exact hnumbers xs hxs x hx
    · exact (Store.pairwise_newItems .nil).imp fun h => (hkey _ _).trans h
  · exact fun x hx => horigin x (hperm.subset hx)
  · exact fun x hx => Store.newItems_fresh (by simp) x (hperm.subset hx)
  · intro x
    rw [List.contains_append, hperm.contains_eq, Store.contains_newItems, List.contains_nil,
      Bool.or_false]
    simp only [List.contains_eq_any_beq, List.any_flatten]

/-- A list without equal items remains one. -/
theorem IsJoin.distinct [PartialEquivBEq β] (hkey : ∀ x y, (key x == key y) = (x == y))
    (h : IsJoin key old found new) (hold : old.Pairwise fun x y => (x == y) = false) :
    (old ++ new).Pairwise fun x y => (x == y) = false := by
  refine List.pairwise_append.mpr ⟨hold, ?_, fun x hx y hy => ?_⟩
  · exact h.increasing.imp fun hlt => (hkey _ _).symm.trans (not_beq_of_lexBelow hlt)
  · rw [Bool.eq_false_iff]
    intro hxy
    have hfresh := h.fresh y hy
    rw [List.contains_iff_exists_mem_beq.mpr ⟨x, hx, BEq.symm hxy⟩] at hfresh
    cases hfresh

end Join

/-! ## Stores -/

section Stores

variable {α : Type} [Scalar α]

theorem Cut.sortKey_beq (c d : Cut α) : (c.sortKey == d.sortKey) = (c == d) := rfl

/-- Whether a delta has no entry that differs from itself. -/
structure Delta.IsNumeric (d : Delta α) : Prop where
  points : ∀ p ∈ d.points, AreNumbers p
  cuts : ∀ c ∈ d.cuts, AreNumbers c.sortKey

/-- Whether no two cuts and no two points of a store are equal. -/
structure Store.IsDistinct (s : Store α) : Prop where
  cuts : s.cuts.Pairwise fun c d => (c == d) = false
  points : s.points.Pairwise fun p q => (p == q) = false

variable [Scalar.IsOrdered α]

instance : PartialEquivBEq (Cut α) where
  symm {c d} h := by
    rw [← Cut.sortKey_beq] at h ⊢
    exact BEq.symm h
  trans {c d e} h h' := by
    rw [← Cut.sortKey_beq] at h h' ⊢
    exact BEq.trans h h'

namespace Store

variable {s : Store α} {deltas : List (Delta α)}

theorem newPoints_isJoin (h : ∀ d ∈ deltas, d.IsNumeric) :
    IsJoin id s.points (deltas.map Delta.points) (s.newPoints deltas) := by
  unfold newPoints
  rw [List.flatMap_def]
  refine isJoin_newItems (fun _ _ => rfl) fun xs hxs => ?_
  obtain ⟨d, hd, rfl⟩ := List.mem_map.mp hxs
  exact (h d hd).points

theorem newCuts_isJoin (h : ∀ d ∈ deltas, d.IsNumeric) :
    IsJoin Cut.sortKey s.cuts (deltas.map Delta.cuts) (s.newCuts deltas) := by
  unfold newCuts
  rw [List.flatMap_def]
  refine isJoin_newItems Cut.sortKey_beq fun xs hxs => ?_
  obtain ⟨d, hd, rfl⟩ := List.mem_map.mp hxs
  exact (h d hd).cuts

end Store

end Stores

end Multistage
