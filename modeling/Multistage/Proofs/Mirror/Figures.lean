/-
Multistage.Proofs.Mirror.Figures — figures of profits mirror figures of costs.

The confidence interval of a sample with the other sign is the interval with the other
sign, its ends swapped: the deviation is the same, since squares do not see a sign.  The
gap of a bound on profits, above the interval, is the gap of the mirrored bound on costs,
below the mirrored interval; here not even the sign of a zero is lost.
-/
import Multistage.Model.Figures
import Multistage.Proofs.Binary64.Nearest
import Multistage.Proofs.Except
import Multistage.Proofs.Transition
import Multistage.Statistics.StudentT

namespace Multistage

open Scalar

/-! ## Intervals -/

/-- The interval with the other sign. -/
def Interval.mirrored {α : Type} [Neg α] (i : Interval α) : Interval α := ⟨-i.upper, -i.lower⟩

/-- Whether an interval is another one with the other sign, up to the sign of zeros. -/
structure Interval.Mirrors {α : Type} [Scalar α] (i j : Interval α) : Prop where
  lower : Mirror i.lower j.upper
  upper : Mirror i.upper j.lower

/-- Symmetric arithmetic whose square roots do not see the sign of a zero. -/
class Statistical.IsSymmetric (α : Type) [Statistical α] : Prop extends Scalar.IsSymmetric α where
  sqrt_congr : ∀ a b : α, Agree a b → Agree (Statistical.sqrt a) (Statistical.sqrt b)

instance Statistical.isSymmetric_exact {K : Type} [Field K] [LinearOrder K]
    [IsStrictOrderedRing K] [Quantiles K] : Statistical.IsSymmetric K where
  sqrt_congr _ _ h := .of_eq (congrArg _ (agree_exact.mp h))

/-- Statistics of doubles are symmetric, whatever their quantiles are. -/
theorem Statistical.ofQuantile_isSymmetric (studentQuantile : Float → Nat → Float) :
    @Statistical.IsSymmetric Float (.ofQuantile studentQuantile) :=
  let _ := Statistical.ofQuantile studentQuantile
  { sqrt_congr _ _ h := Binary64.agree_of_near (Binary64.near_of_agree h).sqrt }

section Interval

variable {α : Type} [Statistical α] [Statistical.IsSymmetric α] {xs ys : List α}

theorem mean_mirror (h : List.Forall₂ Mirror xs ys) : Mirror (mean xs) (mean ys) := by
  unfold mean
  rw [h.length_eq]
  exact (pairwiseTotal_related (fun _ _ _ _ h h' => h.add h') .zero h).div _

theorem deviation_agree (h : List.Forall₂ Mirror xs ys) : Agree (deviation xs) (deviation ys) := by
  have hmean := mean_mirror h
  have hsquares : List.Forall₂ Agree (xs.map fun x => (x - mean xs) * (x - mean xs))
      (ys.map fun y => (y - mean ys) * (y - mean ys)) := by
    rw [List.forall₂_map_left_iff, List.forall₂_map_right_iff]
    exact h.imp fun x y hxy => (hxy.sub hmean).mul (hxy.sub hmean)
  unfold deviation
  rw [h.length_eq]
  refine Statistical.IsSymmetric.sqrt_congr _ _ (IsSymmetric.div_congr _ _ _ ?_)
  exact pairwiseTotal_related IsSymmetric.add_congr (.refl 0) hsquares

theorem margin_agree (h : List.Forall₂ Mirror xs ys) (p : α) :
    Agree (margin xs p) (margin ys p) := by
  unfold margin
  rw [h.length_eq]
  exact IsSymmetric.div_congr _ _ _
    (IsSymmetric.mul_congr _ _ _ _ (.refl _) (deviation_agree h))

/-- Mean and interval of mirrored samples are mirrored. -/
theorem intervalAt_mirror (h : List.Forall₂ Mirror xs ys) (p : α) :
    Option.Rel (fun r r' => Mirror r.1 r'.1 ∧ r.2.Mirrors r'.2) (intervalAt xs p)
      (intervalAt ys p) := by
  have hmean := mean_mirror h
  have hmargin := margin_agree h p
  cases h with
  | nil => exact .none
  | cons hx h =>
    cases h with
    | nil => exact .some ⟨hmean, hmean, hmean⟩
    | cons _ _ => exact .some ⟨hmean, hmean.sub_agree hmargin, hmean.add_agree hmargin⟩

/-- The confidence interval of mirrored samples is the mirrored one, at a level as it was
given. -/
theorem confidenceIntervalOf_mirror (studentQuantile : Float → Nat → Float) {xs ys : List Float}
    (h : List.Forall₂ Mirror xs ys) (level : Value) :
    let _ := Statistical.ofQuantile studentQuantile
    Transition.Alike (Option.Rel fun r r' => Mirror r.1 r'.1 ∧ r.2.Mirrors r'.2) Eq
      (confidenceIntervalOf xs level) (confidenceIntervalOf ys level) := by
  intro statistics
  have := Statistical.ofQuantile_isSymmetric studentQuantile
  have hself : ∀ {β : Type} (r : Except Failure β), Transition.Alike Eq Eq r r :=
    fun r => .refl Eq.refl Eq.refl r
  unfold confidenceIntervalOf
  rw [h.length_eq]
  split_ifs
  · exact .ok (intervalAt_mirror h _)
  · refine (hself _).bind fun a _ ha => ?_
    subst ha
    refine (hself _).bind fun rest _ hrest => ?_
    subst hrest
    refine (hself _).bind fun half _ hhalf => ?_
    subst hhalf
    exact .ok (intervalAt_mirror h _)

end Interval

/-! ## Figures as they were given -/

/-- Numbers that are one, or doubles that are one up to the sign of a zero. -/
inductive Number.Agree : Number → Number → Prop where
  | whole (i : Int) : Agree (.whole i) (.whole i)
  | real {x y : Float} (h : Scalar.Agree x y) : Agree (.real x) (.real y)

/-- Numbers of one kind, one of them the other with the other sign. -/
inductive Number.Mirrors : Number → Number → Prop where
  | whole (i : Int) : Mirrors (.whole (-i)) (.whole i)
  | real {x y : Float} (h : Mirror x y) : Mirrors (.real x) (.real y)

namespace Number

open Transition (Alike)

theorem Mirrors.toFloat {a b : Number} (h : a.Mirrors b) : Alike Mirror Eq a.toFloat b.toFloat := by
  cases h with
  | real h => exact .ok h
  | whole i =>
    show Alike Mirror Eq (Value.floatOfInt (-i)) (Value.floatOfInt i)
    have hnearest := Binary64.nearest?_neg i Nat.one_pos
    unfold Value.floatOfInt
    generalize Binary64.nearest? (-i) 1 = r, Binary64.nearest? i 1 = r' at hnearest
    cases hnearest with
    | none => exact .error rfl
    | some h => exact .ok h

theorem Mirrors.magnitude_eq {a b : Number} (h : a.Mirrors b) : a.magnitude = b.magnitude := by
  cases h with
  | whole i => rw [magnitude, magnitude, Int.natAbs_neg]
  | real h => rw [magnitude, magnitude, Binary64.abs_of_mirror h]

/-- The difference of mirrored numbers is that of the numbers the other way round. -/
theorem Mirrors.sub_swap {a b c d : Number} (h : a.Mirrors b) (h' : c.Mirrors d) :
    Alike Agree Eq (a.sub c) (d.sub b) := by
  cases h with
  | whole i =>
    cases h' with
    | whole j =>
      have hswap : -i - -j = j - i := by omega
      show Alike Agree Eq (.ok (.whole (-i - -j))) (.ok (.whole (j - i)))
      rw [hswap]
      exact .ok (.whole _)
    | real h' => exact (Mirrors.whole i).toFloat.bind fun _ _ h => .ok (.real (h.sub_swap h'))
  | real h =>
    cases h' with
    | whole j => exact (Mirrors.whole j).toFloat.bind fun _ _ h' => .ok (.real (h.sub_swap h'))
    | real h' => exact .ok (.real (h.sub_swap h'))

theorem Agree.quotient {a b : Number} (h : a.Agree b) (c : Number) :
    Alike Scalar.Agree Eq (a.quotient c) (b.quotient c) := by
  cases h with
  | whole i => exact .refl Scalar.Agree.refl Eq.refl _
  | real h =>
    have hreal : ∀ y : Float, Scalar.Agree (_ / y) (_ / y) :=
      fun y => IsSymmetric.div_congr _ _ y h
    cases c with
    | whole j =>
      refine (Alike.refl Eq.refl Eq.refl (toFloat (.whole j))).bind ?_
      rintro y _ rfl
      exact .ok (hreal y)
    | real y => exact .ok (hreal y)

end Number

/-- A number with the other sign; what is no number stays as it is. -/
def Value.negated : Value → Value
  | bool b => int (-(if b then 1 else 0))
  | int i => int (-i)
  | float x => float (-x)
  | v => v

theorem Value.number_negated (v : Value) :
    Transition.Alike Number.Mirrors Eq v.negated.number v.number := by
  cases v with
  | bool b => exact .ok (.whole _)
  | int i => exact .ok (.whole i)
  | float x => exact .ok (.real (.neg x))
  | null | string _ | list _ | record _ => exact .error rfl

namespace Figures

/-- The figures with the other sign, as they were computed and as they were entered. -/
def mirrored (f : Figures Float) : Figures Float where
  bound := f.bound.map (- ·)
  interval := f.interval.map Interval.mirrored
  entered := {
    bound := f.entered.bound.map Value.negated
    interval := f.entered.interval.map fun ends => (ends.map Value.negated).reverse }

theorem boundValue_mirrored (f : Figures Float) : f.mirrored.boundValue = f.boundValue.negated := by
  obtain ⟨bound, interval, enteredBound, enteredInterval⟩ := f
  cases enteredBound with
  | some v => rfl
  | none => cases bound <;> rfl

theorem intervalValues_mirrored (f : Figures Float) :
    f.mirrored.intervalValues = (f.intervalValues.map Value.negated).reverse := by
  obtain ⟨bound, interval, enteredBound, enteredInterval⟩ := f
  cases enteredInterval with
  | some ends => rfl
  | none =>
    cases interval with
    | some i => rfl
    | none =>
      have hnan : -Binary64.nan = Binary64.nan := IsSymmetric.neg_of_isNaN _ (by decide)
      show _ = [Value.float (-Binary64.nan), Value.float (-Binary64.nan)]
      rw [hnan]
      rfl

theorem gapOfValues_of_null {f : Figures Float} (h : f.boundValue = .null) (sense : Sense) :
    f.gapOfValues sense = .ok Binary64.infinity := by
  unfold gapOfValues
  rw [h]
  rfl

/-- From the bound up to an interval of costs, or from an interval of profits up to the
bound. -/
def distance (sense : Sense) (bound : Number) (lower upper : Value) : Except Failure Number :=
  match sense with
  | .min => lower.number >>= fun x => x.sub bound
  | .max => upper.number >>= fun x => bound.sub x

theorem gapOfValues_of_ends {f : Figures Float} (h : f.boundValue ≠ .null) {lower upper : Value}
    (hends : f.intervalValues = [lower, upper]) (sense : Sense) :
    f.gapOfValues sense = f.boundValue.number >>= fun bound =>
      distance sense bound lower upper >>= fun d =>
        d.quotient (bound.magnitude.max (.real 1.0)) := by
  unfold gapOfValues
  rw [hends]
  generalize f.boundValue = bound at h
  cases bound with
  | null => exact absurd rfl h
  | bool _ | int _ | float _ | string _ | list _ | record _ =>
    cases sense <;> simp only [distance, bind_assoc]

theorem gapOfValues_of_not_ends {f : Figures Float} (h : f.boundValue ≠ .null)
    (hends : f.intervalValues.length ≠ 2) (sense : Sense) :
    f.gapOfValues sense = .error (.badValue "an interval has two ends") := by
  unfold gapOfValues
  split
  · exact absurd ‹_› h
  · rename_i hpair _
    rw [hpair] at hends
    exact absurd rfl hends
  · rfl

/-- The gap of mirrored figures of profits is that of figures of costs, up to the sign of a
zero, whatever was entered. -/
theorem gapOfValues_mirrored (f : Figures Float) :
    Transition.Alike Scalar.Agree Eq (f.mirrored.gapOfValues .max) (f.gapOfValues .min) := by
  have hnull : f.mirrored.boundValue = .null ↔ f.boundValue = .null := by
    rw [boundValue_mirrored]
    cases f.boundValue <;> simp [Value.negated]
  by_cases hbound : f.boundValue = .null
  · rw [gapOfValues_of_null hbound, gapOfValues_of_null (hnull.mpr hbound)]
    exact .ok (.refl _)
  have hbound' : f.mirrored.boundValue ≠ .null := fun h => hbound (hnull.mp h)
  have hvalues := f.intervalValues_mirrored
  by_cases hends : f.intervalValues.length = 2
  · obtain ⟨lower, upper, hpair⟩ := List.length_eq_two.mp hends
    rw [hpair] at hvalues
    rw [gapOfValues_of_ends hbound hpair, gapOfValues_of_ends hbound' hvalues,
      boundValue_mirrored]
    -- the upper end of the mirrored interval is the lower one of the interval
    refine (Value.number_negated _).bind fun bound' bound hmirror => ?_
    have hdistance : Transition.Alike Number.Agree Eq
        (distance .max bound' upper.negated lower.negated) (distance .min bound lower upper) :=
      (Value.number_negated lower).bind fun _ _ h => hmirror.sub_swap h
    rw [hmirror.magnitude_eq]
    exact hdistance.bind fun _ _ h => h.quotient _
  · have hends' : f.mirrored.intervalValues.length ≠ 2 := by
      rwa [hvalues, List.length_reverse, List.length_map]
    rw [gapOfValues_of_not_ends hbound hends, gapOfValues_of_not_ends hbound' hends']
    exact .error rfl

end Figures

end Multistage
