/-
Multistage.Proofs.Mirror.Arithmetic — arithmetic that treats both signs alike.

Costs become profits with the other sign.  What is computed of profits mirrors what is
computed of costs if no operation prefers a sign, as it is with exact numbers and with the
doubles, whose roundings do not depend on the sign (`Scalar.IsSymmetric`).  One thing does:
a sum of opposite numbers is a positive zero on either side.  So results mirror each other
up to the sign of a zero (`Scalar.Agree`, `Scalar.Mirror`), which no comparison sees.
-/
import Multistage.Proofs.Cut.Order
import Multistage.Statistics.Pairwise

namespace Multistage

/-- Lists combined entry by entry have related entries if all combinations are related. -/
theorem forall₂_zipWith₂ {α α' β β' γ γ' : Type} {R : α → α' → Prop} {S : β → β' → Prop}
    {T : γ → γ' → Prop} {f : α → β → γ} {f' : α' → β' → γ'}
    (hf : ∀ a a' b b', R a a' → S b b' → T (f a b) (f' a' b')) {as : List α} {as' : List α'}
    {bs : List β} {bs' : List β'} (h : List.Forall₂ R as as') (h' : List.Forall₂ S bs bs') :
    List.Forall₂ T (List.zipWith f as bs) (List.zipWith f' as' bs') := by
  induction h generalizing bs bs' with
  | nil => exact .nil
  | cons ha _ ih =>
    cases h' with
    | nil => exact .nil
    | cons hb h' => exact .cons (hf _ _ _ _ ha hb) (ih h')

/-! ## Laws of the sign -/

/-- The limit on the other side. -/
def Limit.mirrored {α : Type} [Neg α] : Limit α → Limit α
  | finite a => finite (-a)
  | negInf => posInf
  | posInf => negInf

namespace Scalar

/-- Whether two elements are one or equal: for doubles, one up to the sign of a zero. -/
def Agree {α : Type} [Scalar α] (a b : α) : Prop := a = b ∨ (a == b) = true

/-- Arithmetic that treats both signs alike.  Equal elements have equal sums and products,
and the sign can be moved out of all of them, at the price of the sign of a zero. -/
class IsSymmetric (α : Type) [Scalar α] : Prop extends IsOrdered α where
  zero_lt_one : (0 : α) < 1
  isNaN_zero : isNaN (0 : α) = false
  neg_neg : ∀ a : α, - -a = a
  neg_zero : Agree (-0 : α) 0
  neg_beq_neg : ∀ a b : α, (-a == -b) = (a == b)
  neg_lt_neg : ∀ a b : α, -a < -b ↔ b < a
  neg_of_isNaN : ∀ a : α, isNaN a = true → -a = a
  add_congr : ∀ a a' b b' : α, Agree a a' → Agree b b' → Agree (a + b) (a' + b')
  mul_congr : ∀ a a' b b' : α, Agree a a' → Agree b b' → Agree (a * b) (a' * b')
  div_congr : ∀ a a' b : α, Agree a a' → Agree (a / b) (a' / b)
  add_comm : ∀ a b : α, a + b = b + a
  sub_eq_add_neg : ∀ a b : α, a - b = a + -b
  neg_add_neg : ∀ a b : α, Agree (-a + -b) (-(a + b))
  neg_mul : ∀ a b : α, -a * b = -(a * b)
  mul_neg : ∀ a b : α, a * -b = -(a * b)
  neg_div : ∀ a b : α, -a / b = -(a / b)

theorem agree_exact {K : Type} [Field K] [LinearOrder K] {a b : K} : Agree a b ↔ a = b := by
  simp [Agree]

instance isSymmetric_exact {K : Type} [Field K] [LinearOrder K] [IsStrictOrderedRing K] :
    IsSymmetric K where
  zero_lt_one := zero_lt_one
  isNaN_zero := isNaN_exact 0
  neg_neg := neg_neg
  neg_zero := agree_exact.mpr neg_zero
  neg_beq_neg a b := by simp [Bool.beq_eq_decide_eq]
  neg_lt_neg _ _ := neg_lt_neg_iff
  neg_of_isNaN a h := by simp at h
  add_congr _ _ _ _ h h' := by
    rw [agree_exact] at *
    rw [h, h']
  mul_congr _ _ _ _ h h' := by
    rw [agree_exact] at *
    rw [h, h']
  div_congr _ _ _ h := by
    rw [agree_exact] at *
    rw [h]
  add_comm := add_comm
  sub_eq_add_neg := sub_eq_add_neg
  neg_add_neg a b := agree_exact.mpr (neg_add a b).symm
  neg_mul := neg_mul
  mul_neg := mul_neg
  neg_div a b := neg_div b a

/-! ## Equal up to the sign of a zero -/

section Agree

variable {α : Type} [Scalar α]

@[simp] theorem Agree.refl (a : α) : Agree a a := .inl rfl

theorem Agree.of_eq {a b : α} (h : a = b) : Agree a b := .inl h

variable [IsOrdered α] {a a' b b' c : α}

theorem Agree.symm (h : Agree a b) : Agree b a := h.imp Eq.symm BEq.symm

theorem Agree.trans (h : Agree a b) (h' : Agree b c) : Agree a c := by
  rcases h with rfl | h
  · exact h'
  · rcases h' with rfl | h'
    · exact .inr h
    · exact .inr (BEq.trans h h')

/-- Comparisons do not tell elements apart that agree. -/
theorem Agree.lt_iff (h : Agree a a') (h' : Agree b b') : a < b ↔ a' < b' := by
  have hlt : ∀ {a a' b b' : α}, Agree a a' → Agree b b' → a < b → a' < b' := by
    intro a a' b b' h h' hab
    have ha'b : a' < b := by
      rcases h with rfl | h
      · exact hab
      · exact IsOrdered.lt_of_beq_of_lt a' a b (BEq.symm h) hab
    rcases h' with rfl | h'
    · exact ha'b
    · exact IsOrdered.lt_of_lt_of_beq a' b b' ha'b h'
  exact ⟨hlt h h', hlt h.symm h'.symm⟩

theorem Agree.isNaN_eq (h : Agree a b) : isNaN a = isNaN b := by
  rcases h with rfl | h
  · rfl
  · have ha : (a == a) = true := BEq.trans h (BEq.symm h)
    have hb : (b == b) = true := BEq.trans (BEq.symm h) h
    rw [isNaN, isNaN, ha, hb]

end Agree

/-! ## Related sums -/

section Related

variable {α : Type} [Scalar α] {R : α → α → Prop}
  (hadd : ∀ a a' b b' : α, R a a' → R b b' → R (a + b) (a' + b'))

include hadd

theorem foldl_related {xs ys : List α} (h : List.Forall₂ R xs ys) {a b : α} (hab : R a b) :
    R (xs.foldl (· + ·) a) (ys.foldl (· + ·) b) := by
  induction h generalizing a b with
  | nil => exact hab
  | cons hxy _ ih => exact ih (hadd _ _ _ _ hab hxy)

theorem laneTotal_related (hzero : R 0 0) {sums sums' : List α} (h : List.Forall₂ R sums sums') :
    R (laneTotal sums) (laneTotal sums') := by
  fun_cases laneTotal sums with
  | case1 a b c d e f g i =>
    rcases h with _ | ⟨ha, _ | ⟨hb, _ | ⟨hc, _ | ⟨hd, _ | ⟨he, _ | ⟨hf, _ | ⟨hg, _ | ⟨hi, ⟨⟩⟩⟩⟩⟩⟩⟩⟩⟩
    exact hadd _ _ _ _ (hadd _ _ _ _ (hadd _ _ _ _ ha hb) (hadd _ _ _ _ hc hd))
      (hadd _ _ _ _ (hadd _ _ _ _ he hf) (hadd _ _ _ _ hg hi))
  | case2 _ hshort =>
    have hshort' : ∀ a b c d e f g i, sums' = [a, b, c, d, e, f, g, i] → False := by
      rintro a b c d e f g i rfl
      rcases h with _ | ⟨_, _ | ⟨_, _ | ⟨_, _ | ⟨_, _ | ⟨_, _ | ⟨_, _ | ⟨_, _ | ⟨_, ⟨⟩⟩⟩⟩⟩⟩⟩⟩⟩
      exact hshort _ _ _ _ _ _ _ _ rfl
    rw [laneTotal.eq_2 _ hshort']
    exact foldl_related hadd h hzero

theorem addToLanes_related (hzero : R 0 0) {sums sums' xs ys : List α}
    (hsums : List.Forall₂ R sums sums') (h : List.Forall₂ R xs ys) :
    R (addToLanes sums xs) (addToLanes sums' ys) := by
  fun_induction addToLanes sums xs generalizing sums' ys with
  | case1 sums a b c d e f g i rest ih =>
    rcases h with _ | ⟨ha, _ | ⟨hb, _ | ⟨hc, _ | ⟨hd, _ | ⟨he, _ | ⟨hf, _ | ⟨hg, _ | ⟨hi, h⟩⟩⟩⟩⟩⟩⟩⟩
    rw [addToLanes.eq_1]
    have hturn : List.Forall₂ R _ _ :=
      .cons ha (.cons hb (.cons hc (.cons hd (.cons he (.cons hf (.cons hg (.cons hi .nil)))))))
    exact ih (forall₂_zipWith₂ hadd hsums hturn) h
  | case2 sums xs hshort =>
    have hshort' : ∀ a b c d e f g i rest,
        ys = a :: b :: c :: d :: e :: f :: g :: i :: rest → False := by
      rintro a b c d e f g i rest rfl
      rcases h with _ | ⟨_, _ | ⟨_, _ | ⟨_, _ | ⟨_, _ | ⟨_, _ | ⟨_, _ | ⟨_, _ | ⟨_, h⟩⟩⟩⟩⟩⟩⟩⟩
      exact hshort _ _ _ _ _ _ _ _ _ rfl
    rw [addToLanes.eq_2 _ _ hshort']
    exact foldl_related hadd h (laneTotal_related hadd hzero hsums)

/-- Sums of related numbers are related, in whatever order they are formed, if single sums
are. -/
theorem pairwiseTotal_related (hzero : R 0 0) {xs ys : List α} (h : List.Forall₂ R xs ys) :
    R (pairwiseTotal xs) (pairwiseTotal ys) := by
  rw [pairwiseTotal.eq_1 xs, pairwiseTotal.eq_1 ys, ← h.length_eq]
  split_ifs with hshort hlanes
  · exact foldl_related hadd h hzero
  · exact addToLanes_related hadd hzero (List.forall₂_take 8 h) (List.forall₂_drop 8 h)
  · exact hadd _ _ _ _ (pairwiseTotal_related hzero (List.forall₂_take _ h))
      (pairwiseTotal_related hzero (List.forall₂_drop _ h))
termination_by xs.length
decreasing_by
  all_goals simp only [List.length_take, List.length_drop]
  all_goals omega

end Related

/-! ## Mirror images -/

section Mirror

variable {α : Type} [Scalar α]

/-- Whether an element is another one with the other sign, up to the sign of a zero. -/
def Mirror (a b : α) : Prop := Agree a (-b)

@[simp] theorem Mirror.neg (a : α) : Mirror (-a) a := .refl _

variable [IsSymmetric α] {a a' b b' c : α}

theorem Agree.neg (h : Agree a b) : Agree (-a) (-b) := by
  rcases h with rfl | h
  · exact .refl _
  · exact .inr ((IsSymmetric.neg_beq_neg a b).trans h)

theorem Mirror.zero : Mirror (0 : α) 0 := (IsSymmetric.neg_zero : Agree (-0 : α) 0).symm

theorem Mirror.symm (h : Mirror a b) : Mirror b a := by
  have h' : Agree (-a) (- -b) := Agree.neg h
  rw [IsSymmetric.neg_neg] at h'
  exact h'.symm

theorem Mirror.add (h : Mirror a a') (h' : Mirror b b') : Mirror (a + b) (a' + b') :=
  (IsSymmetric.add_congr _ _ _ _ h h').trans (IsSymmetric.neg_add_neg _ _)

/-- A difference of mirror images is the mirror image of the difference; where only one of
its terms is mirrored, the sum takes its place. -/
theorem Mirror.sub_agree (h : Mirror a a') (h' : Agree b b') : Mirror (a - b) (a' + b') := by
  rw [IsSymmetric.sub_eq_add_neg]
  exact h.add (h'.neg)

theorem Mirror.sub (h : Mirror a a') (h' : Mirror b b') : Mirror (a - b) (a' - b') := by
  rw [IsSymmetric.sub_eq_add_neg a' b']
  exact h.sub_agree h'

/-- A difference of mirror images is the difference the other way round. -/
theorem Mirror.sub_swap (h : Mirror a a') (h' : Mirror b b') : Agree (a - b) (b' - a') := by
  rw [IsSymmetric.sub_eq_add_neg, IsSymmetric.sub_eq_add_neg, IsSymmetric.add_comm b']
  exact IsSymmetric.add_congr _ _ _ _ h (Agree.symm h'.symm)

theorem Mirror.add_agree (h : Mirror a a') (h' : Agree b b') : Mirror (a + b) (a' - b') := by
  rw [IsSymmetric.sub_eq_add_neg]
  refine h.add ?_
  show Agree b (- -b')
  rwa [IsSymmetric.neg_neg]

theorem Mirror.mul_agree (h : Mirror a a') (h' : Agree b b') : Mirror (a * b) (a' * b') := by
  have hmul := IsSymmetric.mul_congr _ _ _ _ h h'
  rwa [IsSymmetric.neg_mul] at hmul

theorem Mirror.mul (h : Mirror a a') (h' : Mirror b b') : Agree (a * b) (a' * b') := by
  have hmul := IsSymmetric.mul_congr _ _ _ _ h h'
  rwa [IsSymmetric.neg_mul, IsSymmetric.mul_neg, IsSymmetric.neg_neg] at hmul

theorem Mirror.div (h : Mirror a a') (c : α) : Mirror (a / c) (a' / c) := by
  have hdiv := IsSymmetric.div_congr _ _ c h
  rwa [IsSymmetric.neg_div] at hdiv

/-- Mirror images are compared the other way round. -/
theorem Mirror.lt_iff (h : Mirror a a') (h' : Mirror b b') : a < b ↔ b' < a' :=
  (Agree.lt_iff h h').trans (IsSymmetric.neg_lt_neg _ _)

theorem Mirror.isNaN_eq (h : Mirror a b) : isNaN a = isNaN b := by
  rw [Agree.isNaN_eq h, isNaN, isNaN, IsSymmetric.neg_beq_neg]

/-! ## Sums of mirror images -/

theorem Mirror.foldl {xs ys : List α} (h : List.Forall₂ Mirror xs ys) (hab : Mirror a b) :
    Mirror (xs.foldl (· + ·) a) (ys.foldl (· + ·) b) :=
  foldl_related (fun _ _ _ _ h h' => h.add h') h hab

theorem Mirror.total {xs ys : List α} (h : List.Forall₂ Mirror xs ys) :
    Mirror (total xs) (total ys) :=
  .foldl h .zero

theorem Mirror.dot {as bs : List α} (h : List.Forall₂ Mirror as bs) (xs : List α) :
    Mirror (dot as xs) (dot bs xs) := by
  have htotal := Mirror.total (forall₂_zipWith₂ (fun _ _ _ _ h h' => h.mul_agree h') h
    (List.forall₂_same.mpr fun x (_ : x ∈ xs) => Agree.refl x))
  -- a single product stands alone
  cases h with
  | nil => exact htotal
  | cons hab h =>
    cases h with
    | nil =>
      match xs with
      | [] => exact htotal
      | [x] => exact hab.mul_agree (.refl x)
      | _ :: _ :: _ => exact htotal
    | cons _ _ => exact htotal

end Mirror

end Scalar

end Multistage
