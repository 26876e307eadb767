/-
Multistage.Proofs.Cut.Union — joins depend on the items alone.

Two strictly increasing lists that contain the same items are equal.  So what a join
adds depends on which items there are and which are found, and on nothing else: not on
their order, and not on who found them (`IsJoin.unique`); and the same items add nothing
when they are joined once more (`IsJoin.again`).
-/
import Multistage.Proofs.Cut.Join

namespace Multistage

/-! ## Equal lists -/

section Equal

variable {β : Type} [BEq β]

/-- Whether two lists are equal item by item.  An item counts as equal to itself, even if
it differs from itself by value. -/
def AreEqual (xs ys : List β) : Prop := List.Forall₂ (fun x y => x = y ∨ (x == y) = true) xs ys

@[simp] theorem AreEqual.refl (xs : List β) : AreEqual xs xs :=
  List.forall₂_same.mpr fun _ _ => .inl rfl

theorem AreEqual.append {xs ys xs' ys' : List β} (h : AreEqual xs ys) (h' : AreEqual xs' ys') :
    AreEqual (xs ++ xs') (ys ++ ys') :=
  List.rel_append h h'

/-- Lists of items that are equal to themselves are equal by value. -/
theorem AreEqual.beq {xs ys : List β} (h : AreEqual xs ys) (hself : ∀ x ∈ xs, (x == x) = true) :
    (xs == ys) = true := by
  induction h with
  | nil => rfl
  | @cons x y xs ys hxy _ ih =>
    rw [List.forall_mem_cons] at hself
    rw [List.cons_beq_cons, Bool.and_eq_true]
    refine ⟨?_, ih hself.2⟩
    rcases hxy with rfl | hxy
    · exact hself.1
    · exact hxy

theorem AreEqual.contains [PartialEquivBEq β] {xs ys : List β} (h : AreEqual xs ys) (a : β) :
    xs.contains a = ys.contains a := by
  induction h with
  | nil => rfl
  | @cons x y xs ys hxy _ ih =>
    rw [List.contains_cons, List.contains_cons, ih]
    rcases hxy with rfl | hxy
    · rfl
    · rw [BEq.congr_right hxy]

end Equal

/-! ## Joins of the same items -/

section Join

variable {α β : Type} [Scalar α] [Scalar.IsOrdered α] [BEq β] [PartialEquivBEq β]
  {key : β → List α} {old old' new new' : List β} {found found' : List (List β)}

omit [Scalar.IsOrdered α] in
theorem beq_self_of_areNumbers {as : List α} (h : AreNumbers as) : (as == as) = true := by
  induction as with
  | nil => rfl
  | cons a as ih =>
    simp only [AreNumbers, List.forall_mem_cons] at h
    rw [List.cons_beq_cons, Bool.and_eq_true]
    exact ⟨by simpa [Scalar.isNaN] using h.1, ih h.2⟩

/-- Strictly increasing lists that contain the same items are equal. -/
theorem forall₂_beq_of_increasing (hkey : ∀ x y, (key x == key y) = (x == y))
    (h : new.Pairwise fun x y => lexBelow (key x) (key y) = true)
    (h' : new'.Pairwise fun x y => lexBelow (key x) (key y) = true)
    (hsub : ∀ x ∈ new, new'.contains x = true) (hsub' : ∀ x ∈ new', new.contains x = true) :
    List.Forall₂ (fun x y => (x == y) = true) new new' := by
  -- what is below an item is below what is equal to the item
  have hright : ∀ {x y z : β}, lexBelow (key x) (key y) = true → (y == z) = true →
      lexBelow (key x) (key z) = true := fun hxy hyz => lexBelow_of_beq hxy ((hkey _ _).trans hyz)
  have hdiffer : ∀ {x y : β}, lexBelow (key x) (key y) = true → ¬(y == x) = true := by
    intro x y hxy hyx
    have hself := hright hxy hyx
    rw [not_lexBelow_self] at hself
    cases hself
  induction new generalizing new' with
  | nil =>
    cases new' with
    | nil => exact .nil
    | cons y new' => exact absurd (hsub' y (by simp)) (by simp)
  | cons x new ih =>
    cases new' with
    | nil => exact absurd (hsub x (by simp)) (by simp)
    | cons y new' =>
      rw [List.pairwise_cons] at h h'
      rw [List.forall_mem_cons] at hsub hsub'
      simp only [List.contains_cons, Bool.or_eq_true, List.contains_iff_exists_mem_beq]
        at hsub hsub'
      -- the first items are equal, since each is the least of its list
      have hxy : (x == y) = true := by
        rcases hsub.1 with hxy | ⟨y', hy', hxy'⟩
        · exact hxy
        · rcases hsub'.1 with hyx | ⟨x', hx', hyx'⟩
          · exact BEq.symm hyx
          · have hlt := hright (h'.1 y' hy') (BEq.symm hxy')
            exact absurd (BEq.symm hyx') (hdiffer (lexBelow_trans hlt (h.1 x' hx')))
      refine .cons hxy (ih h.2 h'.2 (fun x' hx' => ?_) fun y' hy' => ?_)
      · rcases hsub.2 x' hx' with hx'y | hmem
        · exact absurd (BEq.trans hx'y (BEq.symm hxy)) (hdiffer (h.1 x' hx'))
        · exact List.contains_iff_exists_mem_beq.mpr hmem
      · rcases hsub'.2 y' hy' with hy'x | hmem
        · exact absurd (BEq.trans hy'x hxy) (hdiffer (h'.1 y' hy'))
        · exact List.contains_iff_exists_mem_beq.mpr hmem

omit [Scalar.IsOrdered α] [PartialEquivBEq β] in
/-- An item of what was joined is found, and it is equal to itself. -/
theorem IsJoin.mem_found (h : IsJoin key old found new)
    (hself : ∀ xs ∈ found, ∀ x ∈ xs, (x == x) = true) {x : β} (hx : x ∈ new) :
    (x == x) = true ∧ (found.any fun xs => xs.contains x) = true := by
  obtain ⟨xs, hxs, hmem⟩ := h.origin x hx
  have hxx := hself xs hxs x hmem
  exact ⟨hxx, List.any_eq_true.mpr ⟨xs, hxs, List.contains_iff_exists_mem_beq.mpr ⟨x, hmem, hxx⟩⟩⟩

/-- What is joined depends on the items that there are and on the items found, not on how
they are arranged. -/
theorem IsJoin.unique (hkey : ∀ x y, (key x == key y) = (x == y)) (h : IsJoin key old found new)
    (h' : IsJoin key old' found' new') (hself : ∀ xs ∈ found, ∀ x ∈ xs, (x == x) = true)
    (hself' : ∀ xs ∈ found', ∀ x ∈ xs, (x == x) = true)
    (hold : ∀ x, old.contains x = old'.contains x)
    (hfound : ∀ x, (found.any fun xs => xs.contains x) = found'.any fun xs => xs.contains x) :
    List.Forall₂ (fun x y => (x == y) = true) new new' := by
  refine forall₂_beq_of_increasing hkey h.increasing h'.increasing (fun x hx => ?_) fun x hx => ?_
  · have hunion := h'.union x
    rw [List.contains_append, ← hold, h.fresh x hx, ← hfound, (h.mem_found hself hx).2] at hunion
    exact hunion
  · have hunion := h.union x
    rw [List.contains_append, hold, h'.fresh x hx, hfound, (h'.mem_found hself' hx).2] at hunion
    exact hunion

omit [Scalar.IsOrdered α] [PartialEquivBEq β] in
/-- Joined once more, the same items add nothing. -/
theorem IsJoin.again (h : IsJoin key old found new) (h' : IsJoin key (old ++ new) found new')
    (hself : ∀ xs ∈ found, ∀ x ∈ xs, (x == x) = true) : new' = [] := by
  rw [List.eq_nil_iff_forall_not_mem]
  intro x hx
  have hfresh := h'.fresh x hx
  rw [h.union, (h'.mem_found hself hx).2, Bool.or_true] at hfresh
  cases hfresh

end Join

end Multistage
