/-
Multistage.Proofs.Cut.Order — the order by value.

Comparisons need not be lawful where an element differs from itself.  What is left
is `Scalar.IsOrdered`, which the doubles have as well as every ordered field: equal
elements can stand for each other, and two numbers are always comparable.  On lists of
numbers the order of words is then a strict order up to equality, and sorting by keys
that differ makes them strictly increasing (`pairwise_sortByKey`).
-/
import Multistage.Cut.Basic
import Multistage.Proofs.Exact

namespace Multistage

/-! ## Laws of comparison -/

/-- Equality and order as the doubles have them: equal elements can stand for each
other, and all elements are comparable but those that differ from themselves. -/
class Scalar.IsOrdered (α : Type) [Scalar α] : Prop where
  symm : ∀ a b : α, (a == b) = true → (b == a) = true
  trans : ∀ a b c : α, (a == b) = true → (b == c) = true → (a == c) = true
  lt_asymm : ∀ a b : α, a < b → ¬b < a
  lt_trans : ∀ a b c : α, a < b → b < c → a < c
  lt_of_lt_of_beq : ∀ a b c : α, a < b → (b == c) = true → a < c
  lt_of_beq_of_lt : ∀ a b c : α, (a == b) = true → b < c → a < c
  total : ∀ a b : α, Scalar.isNaN a = false → Scalar.isNaN b = false →
    a < b ∨ (a == b) = true ∨ b < a

instance Scalar.isOrdered_exact {K : Type} [Field K] [LinearOrder K] : Scalar.IsOrdered K where
  symm a b h := by
    rw [beq_iff_eq] at h ⊢
    exact h.symm
  trans a b c h h' := by
    rw [beq_iff_eq] at h h' ⊢
    exact h.trans h'
  lt_asymm a b h := h.asymm
  lt_trans a b c h h' := h.trans h'
  lt_of_lt_of_beq a b c h h' := by
    rw [beq_iff_eq] at h'
    exact h.trans_eq h'
  lt_of_beq_of_lt a b c h h' := by
    rw [beq_iff_eq] at h
    exact h.trans_lt h'
  total a b _ _ := by
    rw [beq_iff_eq]
    exact lt_trichotomy a b

section Order

variable {α : Type} [Scalar α] [Scalar.IsOrdered α]

instance (priority := low) Scalar.partialEquivBEq : PartialEquivBEq α where
  symm := Scalar.IsOrdered.symm _ _
  trans := Scalar.IsOrdered.trans _ _ _

theorem Scalar.not_beq_of_lt {a b : α} (h : a < b) : (a == b) = false := by
  rw [Bool.eq_false_iff]
  intro hab
  have hbb := IsOrdered.lt_of_lt_of_beq a b a h (BEq.symm hab)
  exact IsOrdered.lt_asymm a a hbb hbb

/-- Lists are equal if their entries are. -/
instance (priority := low) Scalar.partialEquivBEq_list : PartialEquivBEq (List α) where
  symm := by
    intro as bs h
    induction as generalizing bs with
    | nil =>
      cases bs with
      | nil => rfl
      | cons b bs => cases h
    | cons a as ih =>
      cases bs with
      | nil => cases h
      | cons b bs =>
        rw [List.cons_beq_cons, Bool.and_eq_true] at h ⊢
        exact ⟨BEq.symm h.1, ih h.2⟩
  trans := by
    intro as bs cs h h'
    induction as generalizing bs cs with
    | nil =>
      cases bs with
      | nil => exact h'
      | cons b bs => cases h
    | cons a as ih =>
      cases bs with
      | nil => cases h
      | cons b bs =>
        cases cs with
        | nil => cases h'
        | cons c cs =>
          rw [List.cons_beq_cons, Bool.and_eq_true] at h h' ⊢
          exact ⟨BEq.trans h.1 h'.1, ih h.2 h'.2⟩

/-! ## The order of words -/

omit [Scalar.IsOrdered α] in
theorem lexBelow_cons (a b : α) (as bs : List α) :
    lexBelow (a :: as) (b :: bs) = true
      ↔ ((a == b) = true ∧ lexBelow as bs = true) ∨ ((a == b) = false ∧ a < b) := by
  rw [lexBelow]
  cases hab : a == b <;> simp

theorem lexBelow_trans {as bs cs : List α} (h : lexBelow as bs = true)
    (h' : lexBelow bs cs = true) : lexBelow as cs = true := by
  induction as generalizing bs cs with
  | nil =>
    cases cs with
    | nil => cases bs <;> cases h'
    | cons c cs => rfl
  | cons a as ih =>
    cases bs with
    | nil => cases h
    | cons b bs =>
      cases cs with
      | nil => cases h'
      | cons c cs =>
        rw [lexBelow_cons] at h h' ⊢
        rcases h with ⟨hab, h⟩ | ⟨-, hab⟩
        · rcases h' with ⟨hbc, h'⟩ | ⟨-, hbc⟩
          · exact .inl ⟨BEq.trans hab hbc, ih h h'⟩
          · have hac := Scalar.IsOrdered.lt_of_beq_of_lt a b c hab hbc
            exact .inr ⟨Scalar.not_beq_of_lt hac, hac⟩
        · rcases h' with ⟨hbc, -⟩ | ⟨-, hbc⟩
          · have hac := Scalar.IsOrdered.lt_of_lt_of_beq a b c hab hbc
            exact .inr ⟨Scalar.not_beq_of_lt hac, hac⟩
          · have hac := Scalar.IsOrdered.lt_trans a b c hab hbc
            exact .inr ⟨Scalar.not_beq_of_lt hac, hac⟩

theorem lexBelow_of_beq {as bs cs : List α} (h : lexBelow as bs = true) (h' : (bs == cs) = true) :
    lexBelow as cs = true := by
  induction as generalizing bs cs with
  | nil =>
    cases bs with
    | nil => cases h
    | cons b bs =>
      cases cs with
      | nil => cases h'
      | cons c cs => rfl
  | cons a as ih =>
    cases bs with
    | nil => cases h
    | cons b bs =>
      cases cs with
      | nil => cases h'
      | cons c cs =>
        rw [List.cons_beq_cons, Bool.and_eq_true] at h'
        rw [lexBelow_cons] at h ⊢
        rcases h with ⟨hab, h⟩ | ⟨-, hab⟩
        · exact .inl ⟨BEq.trans hab h'.1, ih h h'.2⟩
        · have hac := Scalar.IsOrdered.lt_of_lt_of_beq a b c hab h'.1
          exact .inr ⟨Scalar.not_beq_of_lt hac, hac⟩

theorem not_lexBelow_self (as : List α) : lexBelow as as = false := by
  induction as with
  | nil => rfl
  | cons a as ih =>
    rw [Bool.eq_false_iff, ne_eq, lexBelow_cons]
    rintro (⟨-, h⟩ | ⟨-, h⟩)
    · rw [ih] at h
      cases h
    · exact Scalar.IsOrdered.lt_asymm a a h h

theorem not_lexBelow_of_lexBelow {as bs : List α} (h : lexBelow as bs = true) :
    lexBelow bs as = false := by
  rw [Bool.eq_false_iff]
  intro h'
  have hself := lexBelow_trans h h'
  rw [not_lexBelow_self] at hself
  cases hself

theorem not_beq_of_lexBelow {as bs : List α} (h : lexBelow as bs = true) : (as == bs) = false := by
  rw [Bool.eq_false_iff]
  intro h'
  have hself := lexBelow_of_beq h (BEq.symm h')
  rw [not_lexBelow_self] at hself
  cases hself

omit [Scalar.IsOrdered α] in
/-- Whether no entry differs from itself. -/
def AreNumbers (as : List α) : Prop := ∀ a ∈ as, Scalar.isNaN a = false

theorem lexBelow_total {as bs : List α} (has : AreNumbers as) (hbs : AreNumbers bs) :
    lexBelow as bs = true ∨ (as == bs) = true ∨ lexBelow bs as = true := by
  induction as generalizing bs with
  | nil =>
    cases bs with
    | nil => exact .inr (.inl rfl)
    | cons b bs => exact .inl rfl
  | cons a as ih =>
    cases bs with
    | nil => exact .inr (.inr rfl)
    | cons b bs =>
      simp only [AreNumbers, List.forall_mem_cons] at has hbs
      rw [lexBelow_cons, lexBelow_cons, List.cons_beq_cons, Bool.and_eq_true]
      rcases Scalar.IsOrdered.total a b has.1 hbs.1 with hab | hab | hab
      · exact .inl (.inr ⟨Scalar.not_beq_of_lt hab, hab⟩)
      · rcases ih has.2 hbs.2 with h | h | h
        · exact .inl (.inl ⟨hab, h⟩)
        · exact .inr (.inl ⟨hab, h⟩)
        · exact .inr (.inr (.inl ⟨BEq.symm hab, h⟩))
      · exact .inr (.inr (.inr ⟨Scalar.not_beq_of_lt hab, hab⟩))

/-! ## Sorting -/

variable {β : Type} {key : β → List α}

/-- Items whose keys are lists of numbers and differ are strictly increasing once they
are sorted. -/
theorem pairwise_sortByKey {xs : List β} (hnumbers : ∀ x ∈ xs, AreNumbers (key x))
    (hdistinct : xs.Pairwise fun x y => (key x == key y) = false) :
    (sortByKey key xs).Pairwise fun x y => lexBelow (key x) (key y) = true := by
  -- only among numbers is the comparison transitive, so sorting is followed on the items
  -- of the list
  let le : {x // x ∈ xs} → {x // x ∈ xs} → Bool := fun x y => !lexBelow (key y.1) (key x.1)
  have hsorted : (xs.attach.mergeSort le).Pairwise fun x y => le x y = true := by
    refine List.pairwise_mergeSort (fun x y z hxy hyz => ?_) (fun x y => ?_) _
    · simp only [le, Bool.not_eq_true'] at hxy hyz ⊢
      rw [Bool.eq_false_iff]
      intro hzx
      rcases lexBelow_total (hnumbers x x.2) (hnumbers y y.2) with h | h | h
      · rw [lexBelow_trans hzx h] at hyz
        cases hyz
      · rw [lexBelow_of_beq hzx h] at hyz
        cases hyz
      · rw [h] at hxy
        cases hxy
    · simp only [le, Bool.or_eq_true, Bool.not_eq_true']
      cases h : lexBelow (key y.1) (key x.1) with
      | false => exact .inl rfl
      | true => exact .inr (not_lexBelow_of_lexBelow h)
  have hmap : (xs.attach.mergeSort le).map Subtype.val = sortByKey key xs := by
    rw [List.map_mergeSort (s := fun x y => !lexBelow (key y) (key x)) fun _ _ _ _ => rfl,
      List.attach_map_subtype_val]
    rfl
  have hnotAbove : (sortByKey key xs).Pairwise fun x y => lexBelow (key y) (key x) = false := by
    rw [← hmap, List.pairwise_map]
    exact hsorted.imp fun h => by simpa [le] using h
  have hperm : (sortByKey key xs).Perm xs := List.mergeSort_perm _ _
  have hdiffer : (sortByKey key xs).Pairwise fun x y => (key x == key y) = false :=
    (hperm.pairwise_iff fun h => BEq.symm_false h).mpr hdistinct
  refine ((hnotAbove.and hdiffer).imp_of_mem fun hx hy h => ?_)
  have hkx := hnumbers _ (hperm.subset hx)
  have hky := hnumbers _ (hperm.subset hy)
  rcases lexBelow_total hkx hky with hlt | heq | hgt
  · exact hlt
  · rw [heq] at h
    cases h.2
  · rw [hgt] at h
    cases h.1

end Order

end Multistage
