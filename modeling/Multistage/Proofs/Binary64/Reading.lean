/-
Multistage.Proofs.Binary64.Reading — what is read off a double.

A double is taken apart in two ways: by arithmetic on its bits (`Binary64.read`), and into
the parts with which doubles are added and compared.  Both say the same (`read_eq`).  So a
comparison with a whole number, which is made on what is read, agrees with the order of
the doubles (`isAtMost_zero_iff`).
-/
import Multistage.Proofs.Binary64.Order
import Multistage.Value.Number

namespace Multistage.Binary64

open Float.Model (UnpackedFloat Format)
open Float.Model.UnpackedFloat

/-! ## The fields of the bits -/

theorem toNat_unpackMantissa (b : BitVec 64) :
    (@unpackMantissa .binary64 b).toNat = b.toNat % 2 ^ 52 := by
  simp [unpackMantissa]

theorem toNat_unpackExponent (b : BitVec 64) :
    (@unpackExponent .binary64 b).toNat = b.toNat / 2 ^ 52 % 2048 := by
  simp [unpackExponent, Nat.shiftRight_eq_div_pow]

theorem toNat_unpackSign (b : BitVec 64) :
    (@unpackSign .binary64 b).toNat = b.toNat / 2 ^ 63 := by
  have := b.isLt
  simp [unpackSign, Nat.shiftRight_eq_div_pow]
  omega

/-! ## Parts -/

/-- Whether a sign is that of the numbers below zero. -/
def isNegative : Sign → Bool
  | .negative => true
  | .positive => false

/-- What the bits of a double in parts say. -/
def readingOf : UnpackedFloat → Reading
  | .notANumber => .nan
  | .infinity s => .infinite (isNegative s)
  | .zero s => .finite (isNegative s) 0 (-1074)
  | .finite s m e _ => .finite (isNegative s) m e

theorem isNegative_ofBitVec (b : BitVec 1) :
    isNegative (Sign.ofBitVec b) = (b.toNat == 1) := by
  have hbit := b.isLt
  unfold Sign.ofBitVec
  split
  · next h => simp [h, isNegative]
  · next h =>
    have hone : b.toNat = 1 := by
      have hne : b.toNat ≠ 0 := fun hzero => h (BitVec.eq_of_toNat_eq hzero)
      omega
    simp [hone, isNegative]

/-- What is read off a double are its parts. -/
theorem read_eq (x : Float) : read x = readingOf (parts x) := by
  show _ = readingOf (unpack .binary64 x.toBits.toBitVec)
  have hnegative := isNegative_ofBitVec (@unpackSign .binary64 x.toBits.toBitVec)
  have hfield := toNat_unpackExponent x.toBits.toBitVec
  have hfraction := toNat_unpackMantissa x.toBits.toBitVec
  rw [toNat_unpackSign] at hnegative
  have hfull : @unpackExponent .binary64 x.toBits.toBitVec = -1#_
      ↔ x.toBits.toNat / 2 ^ 52 % 2048 = 2047 := by
    rw [← BitVec.toNat_inj, hfield]
    rfl
  have hempty : @unpackExponent .binary64 x.toBits.toBitVec = 0#_
      ↔ x.toBits.toNat / 2 ^ 52 % 2048 = 0 := by
    rw [← BitVec.toNat_inj, hfield]
    rfl
  have hzero : @unpackMantissa .binary64 x.toBits.toBitVec = 0#_
      ↔ x.toBits.toNat % 2 ^ 52 = 0 := by
    rw [← BitVec.toNat_inj, hfraction]
    rfl
  have hleading : (1#1 ++ @unpackMantissa .binary64 x.toBits.toBitVec).toNat
      = x.toBits.toNat % 2 ^ 52 + 2 ^ 52 := by
    rw [BitVec.toNat_append, hfraction, ← Nat.shiftLeft_add_eq_or_of_lt (Nat.mod_lt _ (by decide)),
      Nat.add_comm]
    rfl
  unfold read unpack
  simp only [hfull, hempty, hzero]
  split_ifs with hinf hmantissa hsub hmantissa
  · exact congrArg Reading.infinite hnegative.symm
  · rfl
  · rw [hmantissa]
    exact congrArg (Reading.finite · 0 (-1074)) hnegative.symm
  · rw [readingOf, hnegative, hfraction, hfield, UInt64.toNat_toBitVec, hsub]
    rfl
  · rw [readingOf, hnegative, hleading, hfield, UInt64.toNat_toBitVec]
    rfl

/-! ## The sign of a double -/

theorem beq_zero_iff (x : Float) : (x == Float.ofInt 0) = true ↔ ∃ s, parts x = .zero s := by
  have hzero : parts (Float.ofInt 0) = .zero .positive := rfl
  rw [beq_iff_parts, hzero]
  rcases parts x with (_ | _) | _ | _ | ⟨_ | _, m, e, _⟩ <;>
    simp [UnpackedFloat.beq, UnpackedFloat.compare]

/-- A double that is not refused as zero or below is above zero, or is no number. -/
theorem isAtMost_zero_iff (x : Float) :
    (Value.floatBelow x 0 || (x == Float.ofInt 0)) = false
      ↔ Value.floatAbove x 0 = true ∨ Scalar.isNaN x = true := by
  have hfraction : ∀ (m : Nat) (e : Int), 0 < m → 0 < (fraction m e).1 := by
    rintro m (k | k) hm
    · exact Nat.mul_pos hm (Nat.two_pow_pos k)
    · exact hm
  have hnone : ∀ e : Int, (fraction 0 e).1 = 0 := by
    rintro (k | k)
    · exact Nat.zero_mul _
    · rfl
  rw [Bool.or_eq_false_iff, Bool.eq_false_iff (b := x == Float.ofInt 0), ne_eq, beq_zero_iff,
    isNaN_eq, Value.floatBelow, Value.floatAbove, read_eq]
  cases parts x with
  | notANumber => simp [readingOf, UnpackedFloat.isNaN]
  | infinity s => cases s <;> simp [readingOf, isNegative, UnpackedFloat.isNaN]
  | zero s =>
    obtain ⟨e, he⟩ : ∃ e, readingOf (.zero s) = .finite (isNegative s) 0 e := ⟨_, rfl⟩
    simp [he, hnone, UnpackedFloat.isNaN]
  | finite s m e hm =>
    have hpos := hfraction m e hm
    cases s <;> simp [readingOf, isNegative, UnpackedFloat.isNaN] <;> omega

end Multistage.Binary64
