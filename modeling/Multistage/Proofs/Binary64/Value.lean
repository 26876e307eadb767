/-
Multistage.Proofs.Binary64.Value — the numbers that doubles stand for.

A double that is a number stands for an extended real number: an infinity, or a significand
times a power of two with its sign (`Denotes`).  The significand has 53 bits unless the
exponent is the least one, so the order of the doubles is that of the numbers they stand for
(`StandsFor.lt_iff`, `StandsFor.beq_iff`).  Parts that are packed stand for the number they
make up, unless that is beyond all doubles (`standsFor_ofParts`).
-/
import Multistage.Proofs.Binary64.Reading
import Multistage.Proofs.Binary64.Rounded
import Multistage.Proofs.Binary64.Sign

namespace Multistage.Binary64

open Float.Model (UnpackedFloat Format)
open Float.Model.UnpackedFloat

/-! ## Significands and exponents -/

/-- Whether a significand has 53 bits, or fewer at the least exponent. -/
structure IsCanonical (m : ℕ) (e : ℤ) : Prop where
  lt : m < 2 ^ 53
  le : -1074 ≤ e
  normal : 2 ^ 52 ≤ m ∨ e = -1074

section Canonical

variable {m m' : ℕ} {e e' : ℤ}

/-- A greater exponent outweighs any significand. -/
theorem IsCanonical.lt_of_lt (h : IsCanonical m e) (h' : IsCanonical m' e') (hlt : e < e') :
    (m : ℝ) * 2 ^ e < m' * 2 ^ e' := by
  have hm : (m : ℝ) < 2 ^ (53 : ℤ) := by exact_mod_cast h.lt
  have hnormal : 2 ^ 52 ≤ m' := h'.normal.resolve_right fun hleast => by
    have hle := h.le
    omega
  have hm' : (2 : ℝ) ^ (52 : ℤ) ≤ m' := by exact_mod_cast hnormal
  have hunit : (0 : ℝ) < 2 ^ e := zpow_pos two_pos e
  calc (m : ℝ) * 2 ^ e < 2 ^ (53 : ℤ) * 2 ^ e := by gcongr
    _ = 2 ^ (53 + e) := (zpow_add₀ two_ne_zero _ _).symm
    _ ≤ 2 ^ (52 + e') := zpow_le_zpow_right₀ one_le_two (by omega)
    _ = 2 ^ (52 : ℤ) * 2 ^ e' := zpow_add₀ two_ne_zero _ _
    _ ≤ m' * 2 ^ e' := by gcongr

theorem IsCanonical.lt_of_lex (h : IsCanonical m e) (h' : IsCanonical m' e')
    (hlt : e < e' ∨ e = e' ∧ m < m') : (m : ℝ) * 2 ^ e < m' * 2 ^ e' := by
  rcases hlt with hlt | ⟨rfl, hlt⟩
  · exact h.lt_of_lt h' hlt
  · have hm : (m : ℝ) < m' := by exact_mod_cast hlt
    have hunit : (0 : ℝ) < 2 ^ e := zpow_pos two_pos e
    gcongr

/-- What an exponent that cannot be packed makes up is beyond all doubles. -/
theorem IsCanonical.le_iff (h : IsCanonical m e) : (2 : ℝ) ^ 1024 ≤ m * 2 ^ e ↔ 971 < e := by
  constructor
  · intro hle
    by_contra hsmall
    have hm : (m : ℝ) < 2 ^ (53 : ℤ) := by exact_mod_cast h.lt
    have hunit : (0 : ℝ) < 2 ^ e := zpow_pos two_pos e
    refine hle.not_gt ?_
    calc (m : ℝ) * 2 ^ e < 2 ^ (53 : ℤ) * 2 ^ e := by gcongr
      _ = 2 ^ (53 + e) := (zpow_add₀ two_ne_zero _ _).symm
      _ ≤ 2 ^ (1024 : ℤ) := zpow_le_zpow_right₀ one_le_two (by omega)
      _ = 2 ^ 1024 := zpow_natCast 2 1024
  · intro hlarge
    have hnormal : 2 ^ 52 ≤ m := h.normal.resolve_right (by omega)
    have hm : (2 : ℝ) ^ (52 : ℤ) ≤ m := by exact_mod_cast hnormal
    calc (2 : ℝ) ^ 1024 = 2 ^ (1024 : ℤ) := (zpow_natCast 2 1024).symm
      _ ≤ 2 ^ (52 + e) := zpow_le_zpow_right₀ one_le_two (by omega)
      _ = 2 ^ (52 : ℤ) * 2 ^ e := zpow_add₀ two_ne_zero _ _
      _ ≤ m * 2 ^ e := by gcongr

end Canonical

/-! ## Parts and numbers -/

/-- Parts that make up a real number: a zero, or a significand times a power of two, with its
sign. -/
inductive IsReal : UnpackedFloat → ℝ → Prop where
  | zero (s : Sign) : IsReal (.zero s) 0
  | finite (s : Sign) {m : ℕ} {e : ℤ} (hm : 0 < m) (h : IsCanonical m e) :
      IsReal (.finite s m e hm) ((s.apply m : ℤ) * 2 ^ e)

/-- The infinity of a sign. -/
noncomputable def infinite : Sign → EReal
  | .positive => ⊤
  | .negative => ⊥

/-- Parts that stand for an extended real number. -/
inductive Denotes : UnpackedFloat → EReal → Prop where
  | infinity (s : Sign) : Denotes (.infinity s) (infinite s)
  | real {u : UnpackedFloat} {x : ℝ} (h : IsReal u x) : Denotes u x

section Order

variable {u v : UnpackedFloat}

theorem IsReal.place_spec {x : ℝ} (h : IsReal u x) :
    u.isNaN = false ∧ place (.infinity .negative) < place u ∧
      place u < place (.infinity .positive) := by
  cases h with
  | zero s => simp [place, UnpackedFloat.isNaN, Prod.Lex.toLex_lt_toLex]
  | finite s hm h => cases s <;> simp [place, UnpackedFloat.isNaN, Prod.Lex.toLex_lt_toLex]

theorem IsReal.lt_of_place {x y : ℝ} (h : IsReal u x) (h' : IsReal v y)
    (hlt : place u < place v) : x < y := by
  have hpos : ∀ {m : ℕ} {e : ℤ}, 0 < m → (0 : ℝ) < m * 2 ^ e := fun hm =>
    mul_pos (by exact_mod_cast hm) (zpow_pos two_pos _)
  cases h with
  | zero s =>
    cases h' with
    | zero t => exact absurd hlt (lt_irrefl _)
    | @finite t m' e' hm' h' =>
      cases t with
      | negative => simp [place, Prod.Lex.toLex_lt_toLex] at hlt
      | positive => simpa [Sign.apply] using hpos hm'
  | @finite s m e hm h =>
    cases h' with
    | zero t =>
      cases s with
      | negative => simpa [Sign.apply] using hpos hm
      | positive => simp [place, Prod.Lex.toLex_lt_toLex] at hlt
    | @finite t m' e' hm' h' =>
      cases s with
      | negative =>
        cases t with
        | negative =>
          have hsize := h'.lt_of_lex h (by
            simp [place, Prod.Lex.toLex_lt_toLex] at hlt
            omega)
          simpa [Sign.apply] using hsize
        | positive =>
          have hneg := hpos (e := e) hm
          have hpos := hpos (e := e') hm'
          simp only [Sign.apply, Int.cast_neg, Int.cast_natCast]
          linarith
      | positive =>
        cases t with
        | negative => simp [place, Prod.Lex.toLex_lt_toLex] at hlt
        | positive =>
          have hsize := h.lt_of_lex h' (by
            simp [place, Prod.Lex.toLex_lt_toLex] at hlt
            omega)
          simpa [Sign.apply] using hsize

theorem IsReal.eq_of_place {x y : ℝ} (h : IsReal u x) (h' : IsReal v y)
    (heq : place u = place v) : x = y := by
  cases h with
  | zero s =>
    cases h' with
    | zero t => rfl
    | finite t hm' h' => cases t <;> simp [place] at heq
  | finite s hm h =>
    cases h' with
    | zero t => cases s <;> simp [place] at heq
    | finite t hm' h' =>
      cases s <;> cases t <;> simp [place] at heq
      · obtain ⟨rfl, rfl⟩ := heq
        rfl
      · obtain ⟨rfl, rfl⟩ := heq
        rfl

/-- Parts lie as the extended real numbers that they stand for. -/
theorem Denotes.place_spec {x y : EReal} (h : Denotes u x) (h' : Denotes v y) :
    (place u < place v → x < y) ∧ (place u = place v → x = y) := by
  cases h with
  | infinity s =>
    cases h' with
    | infinity t => cases s <;> cases t <;> simp [place, infinite, Prod.Lex.toLex_lt_toLex]
    | real h' =>
      obtain ⟨-, hlow, hhigh⟩ := h'.place_spec
      cases s with
      | negative => exact ⟨fun _ => EReal.bot_lt_coe _, fun heq => absurd heq hlow.ne⟩
      | positive => exact ⟨fun hlt => absurd hlt hhigh.asymm, fun heq => absurd heq hhigh.ne'⟩
  | real h =>
    cases h' with
    | infinity t =>
      obtain ⟨-, hlow, hhigh⟩ := h.place_spec
      cases t with
      | negative => exact ⟨fun hlt => absurd hlt hlow.asymm, fun heq => absurd heq hlow.ne'⟩
      | positive => exact ⟨fun _ => EReal.coe_lt_top _, fun heq => absurd heq hhigh.ne⟩
    | real h' =>
      exact ⟨fun hlt => EReal.coe_lt_coe_iff.mpr (h.lt_of_place h' hlt),
        fun heq => congrArg _ (h.eq_of_place h' heq)⟩

theorem Denotes.isNaN_eq_false {x : EReal} (h : Denotes u x) : u.isNaN = false := by
  cases h with
  | infinity s => rfl
  | real h => exact h.place_spec.1

end Order

/-! ## Doubles -/

/-- The number that a double stands for. -/
def StandsFor (a : Float) (x : EReal) : Prop := Denotes (parts a) x

section Doubles

variable {a b : Float} {x y : EReal}

theorem StandsFor.isNaN_eq_false (h : StandsFor a x) : Scalar.isNaN a = false := by
  rw [isNaN_eq]
  exact Denotes.isNaN_eq_false h

theorem StandsFor.lt_iff (h : StandsFor a x) (h' : StandsFor b y) : a < b ↔ x < y := by
  rw [Binary64.lt_iff, and_iff_right h.isNaN_eq_false, and_iff_right h'.isNaN_eq_false]
  refine ⟨(Denotes.place_spec h h').1, fun hlt => ?_⟩
  rcases lt_trichotomy (place (parts a)) (place (parts b)) with hplace | hplace | hplace
  · exact hplace
  · exact absurd ((Denotes.place_spec h h').2 hplace) hlt.ne
  · exact absurd ((Denotes.place_spec h' h).1 hplace) hlt.asymm

theorem StandsFor.beq_iff (h : StandsFor a x) (h' : StandsFor b y) :
    (a == b) = true ↔ x = y := by
  rw [Binary64.beq_iff, and_iff_right h.isNaN_eq_false, and_iff_right h'.isNaN_eq_false]
  refine ⟨(Denotes.place_spec h h').2, fun heq => ?_⟩
  rcases lt_trichotomy (place (parts a)) (place (parts b)) with hplace | hplace | hplace
  · exact absurd ((Denotes.place_spec h h').1 hplace) heq.not_lt
  · exact hplace
  · exact absurd ((Denotes.place_spec h' h).1 hplace) heq.not_gt

/-- A double that is a number stands for one. -/
theorem exists_standsFor (h : Scalar.isNaN a = false) : ∃ x, StandsFor a x := by
  have hread := read_eq a
  unfold StandsFor
  rw [isNaN_eq] at h
  cases hparts : parts a with
  | notANumber => rw [hparts] at h; cases h
  | infinity s => exact ⟨_, .infinity s⟩
  | zero s => exact ⟨_, .real (.zero s)⟩
  | finite s m e hm =>
    refine ⟨_, .real (.finite s hm ?_)⟩
    rw [hparts, readingOf] at hread
    unfold read at hread
    dsimp only at hread
    split_ifs at hread with hfull hinf hsub
    · simp only [Reading.finite.injEq] at hread
      constructor <;> omega
    · simp only [Reading.finite.injEq] at hread
      constructor <;> omega

end Doubles

/-! ## Packing -/

theorem parts_ofParts (u : UnpackedFloat) :
    parts (ofParts u) = unpack .binary64 (pack .binary64 u) := rfl

@[simp] theorem parts_ofParts_zero (s : Sign) : parts (ofParts (.zero s)) = .zero s := by
  cases s <;> rfl

@[simp] theorem parts_ofParts_infinity (s : Sign) :
    parts (ofParts (.infinity s)) = .infinity s := by
  cases s <;> rfl

theorem unpack_normal (s : Sign) {k m : ℕ} (hk : 0 < k) (hk' : k < 2047) (hm : 2 ^ 52 ≤ m)
    (hm' : m < 2 ^ 53) (hpos : 0 < m) :
    unpack .binary64 (packComponents .binary64 s (BitVec.ofNat 11 k) (BitVec.ofNat 52 m))
      = .finite s m (k - 1075) hpos := by
  have hfield : (BitVec.ofNat 11 k).toNat = k := by
    rw [BitVec.toNat_ofNat, Nat.mod_eq_of_lt (by omega)]
  have hfull : BitVec.ofNat 11 k ≠ -1#_ := by
    rw [ne_eq, ← BitVec.toNat_inj, hfield]
    exact hk'.ne
  have hempty : BitVec.ofNat 11 k ≠ 0#_ := by
    rw [ne_eq, ← BitVec.toNat_inj, hfield]
    exact hk.ne'
  have hleading : (1#1 ++ BitVec.ofNat 52 m).toNat = m := by
    rw [BitVec.toNat_append, ← Nat.shiftLeft_add_eq_or_of_lt (BitVec.isLt _), BitVec.toNat_ofNat]
    show 1 <<< 52 + m % 2 ^ 52 = m
    omega
  simp only [unpack, unpackExponent_packComponents, unpackMantissa_packComponents,
    unpackSign_packComponents, Sign.ofBitVec_toBitVec, if_neg hfull, if_neg hempty, hfield,
    hleading]
  rfl

theorem unpack_subnormal (s : Sign) {m : ℕ} (hm : m < 2 ^ 52) (hpos : 0 < m) :
    unpack .binary64 (packComponents .binary64 s 0#11 (BitVec.ofNat 52 m))
      = .finite s m (-1074) hpos := by
  have hfraction : (BitVec.ofNat 52 m).toNat = m := by
    rw [BitVec.toNat_ofNat, Nat.mod_eq_of_lt hm]
  have hsome : BitVec.ofNat 52 m ≠ 0#_ := by
    rw [ne_eq, ← BitVec.toNat_inj, hfraction]
    exact hpos.ne'
  have hfull : (0#11 : BitVec 11) ≠ -1#_ := by decide
  simp only [unpack, unpackExponent_packComponents, unpackMantissa_packComponents,
    unpackSign_packComponents, Sign.ofBitVec_toBitVec, if_neg hfull, if_true, dif_neg hsome,
    hfraction]
  rfl

/-- Parts are packed without loss, unless the exponent is too large. -/
theorem parts_ofParts_finite (s : Sign) {m : ℕ} {e : ℤ} (hm : 0 < m) (h : IsCanonical m e) :
    parts (ofParts (.finite s m e hm)) = if e ≤ 971 then .finite s m e hm else .infinity s := by
  obtain ⟨hlt, hle, hnormal⟩ := h
  have hpack : pack .binary64 (.finite s m e hm)
      = if 2 ^ 11 ≤ (e + 1023 + 52).toNat + 1 then packedInfinity .binary64 s
        else if m.log2 + 1 = 53 then
          packComponents .binary64 s (BitVec.ofNat 11 (e + 1023 + 52).toNat) (BitVec.ofNat 52 m)
        else packComponents .binary64 s 0#11 (BitVec.ofNat 52 m) := rfl
  have hlog : m.log2 + 1 = 53 ↔ 2 ^ 52 ≤ m := by
    have hlog := Nat.log2_eq_iff (k := 52) hm.ne'
    omega
  rw [parts_ofParts, hpack]
  split_ifs with hlarge hfits hfull hfits hfits
  · omega
  · exact parts_ofParts_infinity s
  · rw [unpack_normal s (by omega) (by omega) (hlog.mp hfull) hlt hm]
    congr 1
    omega
  · omega
  · have hsmall := mt hlog.mpr hfull
    rw [unpack_subnormal s (by omega) hm]
    congr 1
    omega
  · omega

/-- A real number among the extended ones, infinite if it is beyond all doubles. -/
noncomputable def limited (x : ℝ) : EReal :=
  if ((2 : ℕ) : ℝ) ^ 1024 ≤ x then ⊤ else if x ≤ -((2 : ℕ) : ℝ) ^ 1024 then ⊥ else x

theorem limited_eq (x : ℝ) :
    limited x = if 2 ^ 1024 ≤ x then ⊤ else if x ≤ -2 ^ 1024 then ⊥ else (x : EReal) := by
  rw [limited, Nat.cast_ofNat]

theorem limited_mono {x y : ℝ} (h : x ≤ y) : limited x ≤ limited y := by
  have hpower : (0 : ℝ) < 2 ^ 1024 := by positivity
  rw [limited_eq, limited_eq]
  generalize (2 : ℝ) ^ 1024 = power at hpower ⊢
  split_ifs <;> first | exact le_top | exact bot_le | exact EReal.coe_le_coe_iff.mpr h | linarith

theorem limited_of_nonneg {x : ℝ} (hx : 0 ≤ x) :
    limited x = if 2 ^ 1024 ≤ x then ⊤ else (x : EReal) := by
  have hpower : (0 : ℝ) < 2 ^ 1024 := by positivity
  rw [limited_eq]
  generalize (2 : ℝ) ^ 1024 = power at hpower ⊢
  rw [if_neg (by linarith : ¬x ≤ -power)]

theorem limited_neg {x : ℝ} (hx : 0 ≤ x) : limited (-x) = -limited x := by
  have hpower : (0 : ℝ) < 2 ^ 1024 := by positivity
  rw [limited_of_nonneg hx, limited_eq]
  generalize (2 : ℝ) ^ 1024 = power at hpower ⊢
  rw [if_neg (by linarith : ¬power ≤ -x)]
  by_cases hlarge : power ≤ x
  · rw [if_pos (neg_le_neg hlarge), if_pos hlarge, EReal.neg_top]
  · rw [if_neg (mt neg_le_neg_iff.mp hlarge), if_neg hlarge, EReal.coe_neg]

/-- What has been packed stands for the number that its parts make up. -/
theorem standsFor_ofParts {u : UnpackedFloat} {x : ℝ} (h : IsReal u x) :
    StandsFor (ofParts u) (limited x) := by
  have hpower : (0 : ℝ) < 2 ^ 1024 := by positivity
  unfold StandsFor
  cases h with
  | zero s =>
    rw [parts_ofParts_zero, limited_of_nonneg le_rfl, if_neg hpower.not_ge]
    exact .real (.zero s)
  | @finite s m e hm h =>
    have hsize : (0 : ℝ) ≤ m * 2 ^ e := by positivity
    have hreal := Denotes.real (.finite s hm h)
    rw [parts_ofParts_finite s hm h]
    cases s with
    | positive =>
      simp only [Sign.apply, Int.cast_natCast] at hreal ⊢
      rw [limited_of_nonneg hsize]
      by_cases hfits : e ≤ 971
      · rw [if_pos hfits, if_neg (mt h.le_iff.mp hfits.not_gt)]
        exact hreal
      · rw [if_neg hfits, if_pos (h.le_iff.mpr (not_le.mp hfits))]
        exact .infinity .positive
    | negative =>
      simp only [Sign.apply, Int.cast_neg, Int.cast_natCast, neg_mul] at hreal ⊢
      rw [limited_neg hsize, limited_of_nonneg hsize]
      by_cases hfits : e ≤ 971
      · rw [if_pos hfits, if_neg (mt h.le_iff.mp hfits.not_gt)]
        exact hreal
      · rw [if_neg hfits, if_pos (h.le_iff.mpr (not_le.mp hfits))]
        exact .infinity .negative

end Multistage.Binary64
