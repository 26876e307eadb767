/-
Multistage.Binary64.Exact — doubles as exact numbers.

A finite double is `± m · 2^e` with a natural `m`; `read` gets the parts out
of the bits and `nearest` goes the other way, from any fraction to the double
that lies nearest to it, a tie going to the even significand.  All of it is
integer arithmetic, so texts, conversions and quotients can be decided
without a rounding error.
-/

namespace Multistage.Binary64

-- Powers are the plain ones, also where a library of algebra offers its own.
attribute [local instance (high)] instPowNat

/-! ## Rounding a quotient -/

/-- The natural number nearest to `num / den`; a half goes to the even
neighbour. -/
def roundHalfEven (num den : Nat) : Nat :=
  let quotient := num / den
  let rest := num % den
  if 2 * rest < den then quotient
  else if den < 2 * rest then quotient + 1
  else if quotient % 2 = 0 then quotient else quotient + 1

/-- The least integer that is at least `num / den`. -/
def ceilDiv (num : Int) (den : Nat) : Int := -(Int.fdiv (-num) den)

/-! ## Reading a double -/

/-- What the bits of a double say. -/
inductive Reading where
  | nan
  | infinite (negative : Bool)
  | finite (negative : Bool) (significand : Nat) (exponent : Int)
  deriving Repr, DecidableEq

/-- The parts of a double: sign, significand and power of two. -/
def read (x : Float) : Reading :=
  let bits := x.toBits.toNat
  let negative := bits / 2 ^ (63 : Nat) == 1
  let field : Nat := bits / 2 ^ (52 : Nat) % 2048
  let fraction : Nat := bits % 2 ^ (52 : Nat)
  if field = 2047 then
    if fraction = 0 then .infinite negative else .nan
  else if field = 0 then .finite negative fraction (-1074)
  else .finite negative (fraction + 2 ^ (52 : Nat)) ((field : Int) - 1075)

/-- `m · 2^e` as a fraction of naturals. -/
def fraction (significand : Nat) (exponent : Int) : Nat × Nat :=
  match exponent with
  | .ofNat e => (significand * 2 ^ e, 1)
  | .negSucc e => (significand, 2 ^ (e + 1))

/-- The exact value of a finite double, as a signed numerator over a
denominator that is a power of two. -/
def toFraction? (x : Float) : Option (Int × Nat) :=
  match read x with
  | .finite negative m e =>
    let (num, den) := fraction m e
    some (if negative then -(num : Int) else num, den)
  | _ => none

/-! ## The nearest double -/

/-- The exponent of two of the unit in the last place of the double nearest
to `num / den`. -/
def unitExponent (num den : Nat) : Int :=
  let k : Int := (num.log2 : Int) - den.log2
  let above := match k with
    | .ofNat e => decide (den * 2 ^ e ≤ num)
    | .negSucc e => decide (den ≤ num * 2 ^ (e + 1))
  Max.max ((if above then k else k - 1) - 52) (-1074)

/-- The nearest multiple of the unit in the last place: a significand and an
exponent, with `2^53` allowed as significand when rounding carries. -/
def roundQuotient (num den : Nat) : Nat × Int :=
  let e := unitExponent num den
  let m := match e with
    | .ofNat k => roundHalfEven num (den * 2 ^ k)
    | .negSucc k => roundHalfEven (num * 2 ^ (k + 1)) den
  (m, e)

/-- The largest value of a rounded quotient is below `2^1024`. -/
def overflows (significand : Nat) (exponent : Int) : Bool :=
  decide (1024 ≤ exponent + (significand.log2 : Int)) && decide (0 < significand)

/-- The double `± m · 2^e`, for parts as `roundQuotient` delivers them. -/
def assemble (negative : Bool) (significand : Nat) (exponent : Int) : Float :=
  let sign := if negative then 2 ^ (63 : Nat) else 0
  let bits :=
    if significand < 2 ^ (52 : Nat) then significand
    else if significand = 2 ^ (53 : Nat) then (exponent + 1076).toNat * 2 ^ (52 : Nat)
    else (exponent + 1075).toNat * 2 ^ (52 : Nat) + (significand - 2 ^ (52 : Nat))
  Float.ofBits (UInt64.ofNat (sign + bits))

/-- The double nearest to `num / den`, none when it is too large. -/
def nearest? (num : Int) (den : Nat) : Option Float :=
  let size := num.natAbs
  if size = 0 then some 0.0 else
  let (m, e) := roundQuotient size den
  if overflows m e then none else some (assemble (decide (num < 0)) m e)

/-- The double nearest to `num / den`; one that is too large becomes
infinite. -/
def nearest (num : Int) (den : Nat) : Float :=
  (nearest? num den).getD (if num < 0 then -(1.0 / 0.0) else 1.0 / 0.0)

/-- Positive infinity. -/
def infinity : Float := 1.0 / 0.0

/-- The double that differs from itself. -/
def nan : Float := 0.0 / 0.0

end Multistage.Binary64
