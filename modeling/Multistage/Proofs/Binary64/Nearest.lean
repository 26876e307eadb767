/-
Multistage.Proofs.Binary64.Nearest — the nearest double with the other sign.

The double nearest to a quotient is assembled from bits: a sign, and a significand and an
exponent that do not depend on it.  That the bits of the latter leave the place of the sign
free is a matter of bounds: a rounded significand has at most 53 bits or is `2^53`
(`roundQuotient_le`).  So the quotient with the other sign rounds to the double with the
other sign (`nearest?_neg`); only zero stays as it is.
-/
import Multistage.Proofs.Binary64.Rounding
import Multistage.Proofs.Binary64.Sign

namespace Multistage.Binary64

open Float.Model (UnpackedFloat Format)
open Float.Model.UnpackedFloat

/-! ## Bits -/

/-- The bits beside the sign of the double of a significand and an exponent. -/
def magnitudeBits (significand : Nat) (exponent : Int) : Nat :=
  if significand < 2 ^ 52 then significand
  else if significand = 2 ^ 53 then (exponent + 1076).toNat * 2 ^ 52
  else (exponent + 1075).toNat * 2 ^ 52 + (significand - 2 ^ 52)

theorem magnitudeBits_lt {significand : Nat} {exponent : Int} (hle : significand ≤ 2 ^ 53)
    (hfits : overflows significand exponent = false) :
    magnitudeBits significand exponent < 2 ^ 63 := by
  unfold magnitudeBits
  split_ifs with hsmall hcarry
  · omega
  · subst hcarry
    have hlog : (2 ^ 53 : Nat).log2 = 53 := by decide
    simp only [overflows, hlog] at hfits
    simp at hfits
    omega
  · have hlog : significand.log2 = 52 := by
      rw [Nat.log2_eq_iff (by omega)]
      omega
    simp only [overflows, hlog] at hfits
    simp at hfits
    omega

theorem ofBits_eq (bits : UInt64) :
    Float.ofBits bits = ofParts (unpack .binary64 bits.toBitVec) := rfl

theorem toNat_packComponents (s : Sign) (e : BitVec 11) (m : BitVec 52) :
    (packComponents .binary64 s e m).toNat
      = s.toBitVec.toNat * 2 ^ 63 + (e.toNat * 2 ^ 52 + m.toNat) := by
  have happend : (packComponents .binary64 s e m).toNat = ((s.toBitVec ++ e) ++ m).toNat := rfl
  rw [happend, BitVec.toNat_append, BitVec.toNat_append, ← Nat.shiftLeft_add_eq_or_of_lt m.isLt,
    ← Nat.shiftLeft_add_eq_or_of_lt e.isLt, Nat.shiftLeft_eq, Nat.shiftLeft_eq]
  omega

/-- Bits below the place of the sign are those of an exponent and a mantissa. -/
theorem toBitVec_eq_packComponents (s : Sign) {bits : Nat} (hbits : bits < 2 ^ 63) :
    (UInt64.ofNat (s.toBitVec.toNat * 2 ^ 63 + bits)).toBitVec
      = packComponents .binary64 s (BitVec.ofNat 11 (bits / 2 ^ 52))
          (BitVec.ofNat 52 (bits % 2 ^ 52)) := by
  have hsign : s.toBitVec.toNat < 2 := s.toBitVec.isLt
  apply BitVec.eq_of_toNat_eq
  rw [toNat_packComponents, BitVec.toNat_ofNat, BitVec.toNat_ofNat, UInt64.toNat_toBitVec,
    UInt64.toNat_ofNat']
  omega

/-- The sign of an assembled double. -/
def signOf (negative : Bool) : Sign := if negative then .negative else .positive

theorem assemble_eq (negative : Bool) {significand : Nat} {exponent : Int}
    (hle : significand ≤ 2 ^ 53) (hfits : overflows significand exponent = false) :
    assemble negative significand exponent
      = ofParts (unpack .binary64 (packComponents .binary64 (signOf negative)
          (BitVec.ofNat 11 (magnitudeBits significand exponent / 2 ^ 52))
          (BitVec.ofNat 52 (magnitudeBits significand exponent % 2 ^ 52)))) := by
  rw [← toBitVec_eq_packComponents _ (magnitudeBits_lt hle hfits), ← ofBits_eq]
  cases negative <;> rfl

theorem assemble_not (negative : Bool) {significand : Nat} {exponent : Int}
    (hle : significand ≤ 2 ^ 53) (hfits : overflows significand exponent = false) :
    assemble (!negative) significand exponent = -assemble negative significand exponent := by
  have hsign : signOf (!negative) = -signOf negative := by
    cases negative <;> rfl
  rw [assemble_eq _ hle hfits, assemble_eq _ hle hfits, hsign, unpack_packComponents_neg,
    ofParts_neg]

/-! ## Quotients with the other sign -/

/-- The quotient with the other sign has the nearest double with the other sign, or is as
far beyond all doubles. -/
theorem nearest?_neg (num : Int) {den : Nat} (hden : 0 < den) :
    Option.Rel Scalar.Mirror (nearest? (-num) den) (nearest? num den) := by
  unfold nearest?
  dsimp only
  rw [Int.natAbs_neg]
  by_cases hzero : num.natAbs = 0
  · rw [if_pos hzero, if_pos hzero]
    exact .some Scalar.Mirror.zero
  · rw [if_neg hzero, if_neg hzero]
    have hle := roundQuotient_le num.natAbs hden
    have hsign : decide (-num < 0) = !decide (num < 0) := by
      rw [Bool.eq_iff_iff, Bool.not_eq_true', decide_eq_true_eq, decide_eq_false_iff_not]
      omega
    generalize roundQuotient num.natAbs den = r at hle ⊢
    obtain ⟨m, e⟩ := r
    dsimp only at hle ⊢
    split_ifs with hfits
    · exact .none
    · rw [hsign, assemble_not _ hle (Bool.eq_false_iff.mpr hfits)]
      exact .some (.neg _)

end Multistage.Binary64
