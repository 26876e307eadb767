/-
Multistage.Proofs.Binary64.Sign — doubles with the other sign.

Rounding does not look at the sign.  So products and quotients of negated doubles are the
negated ones, bit by bit, and sums are, up to the sign of a zero: a sum that cancels is a
positive zero on both sides.  All of it is shown on doubles in parts, with an arithmetic
that knows the two zeros apart (`Near`), and then packed again.
-/
import Multistage.Proofs.Binary64.Order
import Multistage.Proofs.Mirror.Arithmetic

namespace Multistage

namespace Binary64

open Float.Model (UnpackedFloat Format)
open Float.Model.UnpackedFloat

/-! ## Parts and bits -/

/-- The double with the given parts. -/
def ofParts (u : UnpackedFloat) : Float := .ofModel (Float.Model.pack u)

@[simp] theorem ofParts_parts (a : Float) : ofParts (parts a) = a := Float.ofBits_toBits a

theorem unpack_packComponents_neg (s : Sign) (e : BitVec 11) (m : BitVec 52) :
    unpack .binary64 (packComponents .binary64 (-s) e m)
      = (unpack .binary64 (packComponents .binary64 s e m)).neg := by
  simp only [unpack, unpackExponent_packComponents, unpackMantissa_packComponents,
    unpackSign_packComponents, Sign.ofBitVec_toBitVec]
  split_ifs <;> rfl

theorem unpack_pack_neg (u : UnpackedFloat) :
    unpack .binary64 (pack .binary64 u.neg) = (unpack .binary64 (pack .binary64 u)).neg := by
  cases u with
  | notANumber => simp [UnpackedFloat.neg, pack]
  | infinity s => exact unpack_packComponents_neg s _ _
  | zero s => exact unpack_packComponents_neg s _ _
  | finite s m e hm =>
    simp only [UnpackedFloat.neg, pack]
    split_ifs
    · exact unpack_packComponents_neg s _ _
    · exact unpack_packComponents_neg s _ _
    · exact unpack_packComponents_neg s _ _

theorem parts_ofParts_neg (u : UnpackedFloat) :
    parts (ofParts u.neg) = (parts (ofParts u)).neg :=
  unpack_pack_neg u

theorem neg_eq (a : Float) : -a = ofParts (parts a).neg := rfl

@[simp] theorem parts_neg (a : Float) : parts (-a) = (parts a).neg := by
  rw [neg_eq, parts_ofParts_neg, ofParts_parts]

@[simp] theorem ofParts_neg (u : UnpackedFloat) : ofParts u.neg = -ofParts u := by
  rw [neg_eq, ← parts_ofParts_neg, ofParts_parts]

/-! ## Parts up to the sign of a zero -/

/-- Whether parts are the same, or those of two zeros. -/
def Near (u v : UnpackedFloat) : Prop := u = v ∨ ∃ s t, u = .zero s ∧ v = .zero t

theorem Near.refl (u : UnpackedFloat) : Near u u := .inl rfl

theorem Near.zeros (s t : Sign) : Near (.zero s) (.zero t) := .inr ⟨s, t, rfl, rfl⟩

theorem Near.add {u u' v v' : UnpackedFloat} (h : Near u u') (h' : Near v v') :
    Near (.add .binary64 u v) (.add .binary64 u' v') := by
  rcases h with rfl | ⟨s, s', rfl, rfl⟩ <;> rcases h' with rfl | ⟨t, t', rfl, rfl⟩
  · exact .refl _
  · cases u with
    | zero s => cases s <;> cases t <;> cases t' <;> exact .zeros _ _
    | notANumber | infinity | finite => exact .refl _
  · cases v with
    | zero t => cases s <;> cases s' <;> cases t <;> exact .zeros _ _
    | notANumber | infinity | finite => exact .refl _
  · cases s <;> cases s' <;> cases t <;> cases t' <;> exact .zeros _ _

theorem Near.mul {u u' v v' : UnpackedFloat} (h : Near u u') (h' : Near v v') :
    Near (.mul .binary64 u v) (.mul .binary64 u' v') := by
  rcases h with rfl | ⟨s, s', rfl, rfl⟩ <;> rcases h' with rfl | ⟨t, t', rfl, rfl⟩
  · exact .refl _
  · cases u with
    | zero | finite => exact .zeros _ _
    | notANumber | infinity => exact .refl _
  · cases v with
    | zero | finite => exact .zeros _ _
    | notANumber | infinity => exact .refl _
  · exact .zeros _ _

/-- The two zeros are apart as divisors, so the divisor is one and the same. -/
theorem Near.div {u u' : UnpackedFloat} (h : Near u u') (v : UnpackedFloat) :
    Near (.div .binary64 u v) (.div .binary64 u' v) := by
  rcases h with rfl | ⟨s, s', rfl, rfl⟩
  · exact .refl _
  · cases v with
    | infinity | finite => exact .zeros _ _
    | notANumber | zero => exact .refl _

theorem Near.sqrt {u u' : UnpackedFloat} (h : Near u u') :
    Near (.sqrt .binary64 u) (.sqrt .binary64 u') := by
  rcases h with rfl | ⟨s, s', rfl, rfl⟩
  · exact .refl _
  · exact .zeros _ _

/-! ## Rounding and the sign -/

theorem roundWithAccuracy_neg (s : Sign) (m : Nat) (e : Int) (accuracy : Accuracy) :
    roundWithAccuracy .binary64 (-s) m e accuracy
      = (roundWithAccuracy .binary64 s m e accuracy).neg := by
  simp only [roundWithAccuracy]
  split_ifs <;> rfl

theorem normalize_neg (m e : Int) (s t : Sign) :
    Near (UnpackedFloat.normalize .binary64 (-m) e s)
      (UnpackedFloat.normalize .binary64 m e t).neg := by
  rcases lt_trichotomy m 0 with h | rfl | h
  · left
    have hm : compare (-m) 0 = .gt := compare_gt_iff_gt.mpr (by omega)
    have hm' : compare m 0 = .lt := compare_lt_iff_lt.mpr h
    simp only [UnpackedFloat.normalize, hm, hm']
    exact roundWithAccuracy_neg .negative _ _ _
  · exact .zeros _ _
  · left
    have hm : compare (-m) 0 = .lt := compare_lt_iff_lt.mpr (by omega)
    have hm' : compare m 0 = .gt := compare_gt_iff_gt.mpr h
    simp only [UnpackedFloat.normalize, hm, hm', neg_neg]
    exact roundWithAccuracy_neg .positive _ _ _

theorem sign_neg_mul (s t : Sign) : -s * t = -(s * t) := by
  cases s <;> cases t <;> rfl

theorem sign_mul_neg (s t : Sign) : s * -t = -(s * t) := by
  cases s <;> cases t <;> rfl

theorem sign_neg_div (s t : Sign) : -s / t = -(s / t) := by
  cases s <;> cases t <;> rfl

theorem neg_mul_parts (u v : UnpackedFloat) :
    UnpackedFloat.mul .binary64 u.neg v = (UnpackedFloat.mul .binary64 u v).neg := by
  cases u <;> cases v <;>
    simp only [UnpackedFloat.mul, UnpackedFloat.neg, sign_neg_mul, roundWithAccuracy_neg]

theorem mul_neg_parts (u v : UnpackedFloat) :
    UnpackedFloat.mul .binary64 u v.neg = (UnpackedFloat.mul .binary64 u v).neg := by
  cases u <;> cases v <;>
    simp only [UnpackedFloat.mul, UnpackedFloat.neg, sign_mul_neg, roundWithAccuracy_neg]

theorem neg_div_parts (u v : UnpackedFloat) :
    UnpackedFloat.div .binary64 u.neg v = (UnpackedFloat.div .binary64 u v).neg := by
  cases u <;> cases v <;>
    simp only [UnpackedFloat.div, UnpackedFloat.neg, sign_neg_div, roundWithAccuracy_neg]

theorem sign_apply_neg (s : Sign) (n : Int) : (-s).apply n = -s.apply n := by
  cases s
  · exact (neg_neg n).symm
  · rfl

/-- A difference is a sum with the other sign. -/
theorem sub_parts (u v : UnpackedFloat) :
    UnpackedFloat.sub .binary64 u v = UnpackedFloat.add .binary64 u v.neg := by
  cases u <;> cases v <;>
    simp only [UnpackedFloat.sub, UnpackedFloat.add, UnpackedFloat.neg, sign_apply_neg,
      Int.sub_eq_add_neg]

theorem neg_add_parts (u v : UnpackedFloat) :
    Near (.add .binary64 u.neg v.neg) (UnpackedFloat.add .binary64 u v).neg := by
  cases u with
  | notANumber => exact .refl _
  | infinity s =>
    cases v with
    | infinity t => cases s <;> cases t <;> exact .refl _
    | notANumber | zero | finite => exact .refl _
  | zero s =>
    cases v with
    | zero t => cases s <;> cases t <;> exact .zeros _ _
    | notANumber | infinity | finite => exact .refl _
  | finite s m e hm =>
    cases v with
    | finite t m' e' hm' =>
      simp only [UnpackedFloat.add, UnpackedFloat.neg, sign_apply_neg, ← Int.neg_add]
      exact normalize_neg _ _ _ _
    | notANumber | infinity | zero => exact .refl _

theorem add_comm_parts (u v : UnpackedFloat) :
    UnpackedFloat.add .binary64 u v = UnpackedFloat.add .binary64 v u := by
  cases u with
  | infinity s =>
    cases v with
    | infinity t => cases s <;> cases t <;> rfl
    | notANumber | zero | finite => rfl
  | zero s =>
    cases v with
    | zero t => cases s <;> cases t <;> rfl
    | notANumber | infinity | finite => rfl
  | finite s m e hm =>
    cases v with
    | finite t m' e' hm' => simp only [UnpackedFloat.add, min_comm e e', Int.add_comm]
    | notANumber | infinity | zero => rfl
  | notANumber => cases v <;> rfl

/-! ## Comparisons and the sign -/

/-- Negated doubles are compared the other way round. -/
theorem compare_neg (u v : UnpackedFloat) : u.neg.compare v.neg = v.compare u := by
  have hswap : ∀ (e e' : Int) (m m' : Nat), (compare e e').then (compare m m')
      = ((compare e' e).then (compare m' m)).swap := by
    intro e e' m m'
    rw [Ordering.swap_then, ← Std.OrientedCmp.eq_swap, ← Std.OrientedCmp.eq_swap]
  rcases u with (_ | _) | _ | (_ | _) | ⟨_ | _, m, e, _⟩ <;>
    rcases v with (_ | _) | _ | (_ | _) | ⟨_ | _, m', e', _⟩
  any_goals rfl
  · exact congrArg some (hswap e e' m m')
  · exact congrArg some (hswap e' e m' m).symm

theorem neg_neg_parts (u : UnpackedFloat) : u.neg.neg = u := by
  have hsign : ∀ s : Sign, - -s = s := by
    rintro (_ | _) <;> rfl
  cases u <;> simp only [UnpackedFloat.neg, hsign]

/-! ## Doubles -/

theorem parts_inj {a b : Float} (h : parts a = parts b) : a = b := by
  rw [← ofParts_parts a, h, ofParts_parts]

theorem near_of_agree {a b : Float} (h : Scalar.Agree a b) : Near (parts a) (parts b) := by
  rcases h with rfl | h
  · exact .refl _
  · rw [beq_iff_parts, beq_iff_ne_notANumber_and_eq] at h
    obtain ⟨-, -, h | ⟨ha, hb⟩ | ⟨ha, hb⟩⟩ := h
    · exact .inl h
    · exact .inr ⟨_, _, ha, hb⟩
    · exact .inr ⟨_, _, ha, hb⟩

theorem agree_of_near {u v : UnpackedFloat} (h : Near u v) :
    Scalar.Agree (ofParts u) (ofParts v) := by
  rcases h with rfl | ⟨s, t, rfl, rfl⟩
  · exact .refl _
  · right
    cases s <;> cases t <;> rfl

theorem add_eq (a b : Float) : a + b = ofParts (.add .binary64 (parts a) (parts b)) := rfl

theorem sub_eq (a b : Float) : a - b = ofParts (.sub .binary64 (parts a) (parts b)) := rfl

theorem mul_eq (a b : Float) : a * b = ofParts (.mul .binary64 (parts a) (parts b)) := rfl

theorem div_eq (a b : Float) : a / b = ofParts (.div .binary64 (parts a) (parts b)) := rfl

theorem abs_eq (a : Float) : a.abs = ofParts (parts a).abs := rfl

/-- Mirror images are as far from zero. -/
theorem abs_of_mirror {a b : Float} (h : Scalar.Mirror a b) : a.abs = b.abs := by
  have hnear := near_of_agree h
  rw [parts_neg] at hnear
  rw [abs_eq, abs_eq]
  congr 1
  rcases hnear with ha | ⟨s, t, ha, hb⟩
  · rw [ha]
    cases parts b <;> rfl
  · rw [ha]
    generalize parts b = v at hb
    cases v <;> cases hb
    rfl

theorem limit_neg (a : Float) : Scalar.limit (-a) = (Scalar.limit a).mirrored := by
  have hfinite : ∀ b : Float, (parts b).isInf = false → Scalar.limit b = .finite b :=
    fun b hb => if_neg (by rw [Bool.not_eq_true]; exact hb)
  cases hparts : parts a with
  | infinity s =>
    have ha : a = ofParts (.infinity s) := by rw [← hparts, ofParts_parts]
    rw [ha]
    cases s <;> rfl
  | notANumber | zero | finite =>
    rw [hfinite a (by rw [hparts]; rfl), hfinite (-a) (by rw [parts_neg, hparts]; rfl)]
    rfl

end Binary64

open Binary64 in
instance Scalar.isSymmetric_float : Scalar.IsSymmetric Float where
  zero_lt_one := by decide
  isNaN_zero := by decide
  neg_neg a := parts_inj (by rw [parts_neg, parts_neg, neg_neg_parts])
  neg_zero := .inr (by decide)
  neg_beq_neg a b := by
    rw [BEq.comm, Bool.eq_iff_iff, beq_iff_parts, beq_iff_parts, parts_neg, parts_neg]
    unfold Float.Model.UnpackedFloat.beq
    rw [compare_neg]
  neg_lt_neg a b := by
    rw [lt_iff_parts, lt_iff_parts, parts_neg, parts_neg]
    unfold Float.Model.UnpackedFloat.lt
    rw [compare_neg]
  neg_of_isNaN a h := by
    rw [isNaN_eq, Float.Model.UnpackedFloat.isNaN_iff] at h
    exact parts_inj (by rw [parts_neg, h]; rfl)
  add_congr _ _ _ _ h h' := agree_of_near ((near_of_agree h).add (near_of_agree h'))
  mul_congr _ _ _ _ h h' := agree_of_near ((near_of_agree h).mul (near_of_agree h'))
  div_congr _ _ b h := agree_of_near ((near_of_agree h).div (parts b))
  add_comm a b := by
    rw [add_eq, add_eq, add_comm_parts]
  sub_eq_add_neg a b := by
    rw [sub_eq, add_eq, sub_parts, parts_neg]
  neg_add_neg a b := by
    rw [add_eq, add_eq, ← ofParts_neg, parts_neg, parts_neg]
    exact agree_of_near (neg_add_parts _ _)
  neg_mul a b := by
    rw [mul_eq, mul_eq, ← ofParts_neg, parts_neg, neg_mul_parts]
  mul_neg a b := by
    rw [mul_eq, mul_eq, ← ofParts_neg, parts_neg, mul_neg_parts]
  neg_div a b := by
    rw [div_eq, div_eq, ← ofParts_neg, parts_neg, neg_div_parts]

end Multistage
