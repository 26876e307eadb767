/-
Multistage.Decimal.Shortest — the fewest decimal digits that read back.

A double stands for the interval of reals that round to it.  Among the
decimals in that interval the printed one has the fewest digits, and of those
it is the nearest to the value.  The search tries one digit, then two, and so
on: on each grid only the two neighbours of the value can lie in the interval
first, so two comparisons decide.
-/
import Multistage.Binary64.Exact

namespace Multistage.Decimal

-- Powers are the plain ones, also where a library of algebra offers its own.
attribute [local instance (high)] instPowNat

/-- A positive decimal `digits · 10^exponent`. -/
structure Scaled where
  digits : Nat
  exponent : Int
  deriving Repr, DecidableEq

/-! ## The search -/

/-- `num / den` compared with `d · 10^k`: whether the decimal is at most the
fraction. -/
def Scaled.atMost (d : Scaled) (num den : Nat) : Bool :=
  match d.exponent with
  | .ofNat k => decide (d.digits * 10 ^ k * den ≤ num)
  | .negSucc k => decide (d.digits * den ≤ num * 10 ^ (k + 1))

/-- Whether the decimal is below the fraction. -/
def Scaled.below (d : Scaled) (num den : Nat) : Bool :=
  match d.exponent with
  | .ofNat k => decide (d.digits * 10 ^ k * den < num)
  | .negSucc k => decide (d.digits * den < num * 10 ^ (k + 1))

/-- The reals that round to a double, as fractions over one denominator, and
whether the two ends belong to it. -/
structure Interval where
  low : Nat
  value : Nat
  high : Nat
  den : Nat
  closed : Bool

/-- The interval of `m · 2^e`: half a unit on each side, a quarter below a
power of two, where the unit halves. -/
def Interval.ofDouble (m : Nat) (e : Int) : Interval :=
  let (unit, den) := Binary64.fraction 1 (e - 2)
  let down := if m = 2 ^ (52 : Nat) ∧ -1074 < e then 1 else 2
  { low := (4 * m - down) * unit
    value := 4 * m * unit
    high := (4 * m + 2) * unit
    den := den
    closed := m % 2 = 0 }

/-- Whether a decimal lies in the interval. -/
def Interval.contains (i : Interval) (d : Scaled) : Bool :=
  if i.closed then !d.below i.low i.den && d.atMost i.high i.den
  else !d.atMost i.low i.den && d.below i.high i.den

/-- The greatest decimal of exponent `k` that is at most `num / den`. -/
def floorAt (num den : Nat) (k : Int) : Nat :=
  match k with
  | .ofNat e => num / (den * 10 ^ e)
  | .negSucc e => num * 10 ^ (e + 1) / den

/-- The decimal of exponent `k` nearest to `num / den`, a half going to the
even neighbour. -/
def roundAt (num den : Nat) (k : Int) : Nat :=
  match k with
  | .ofNat e => Binary64.roundHalfEven num (den * 10 ^ e)
  | .negSucc e => Binary64.roundHalfEven (num * 10 ^ (e + 1)) den

/-- The best decimal of exponent `k` in the interval: the neighbours of the
value are tried, the nearer one first. -/
def Interval.pick? (i : Interval) (k : Int) : Option Scaled :=
  let near := roundAt i.value i.den k
  let down := floorAt i.value i.den k
  let far := if near = down then down + 1 else down
  if i.contains ⟨near, k⟩ then some ⟨near, k⟩
  else if i.contains ⟨far, k⟩ then some ⟨far, k⟩
  else none

/-- The exponent of ten of the leading digit of `num / den`. -/
def leadingExponent (num den : Nat) : Int :=
  let guess : Int := (((num.log2 : Int) - den.log2) * 30103) / 100000
  let fits (k : Int) : Bool := (Scaled.mk 1 k).atMost num den
  if fits (guess + 1) then guess + 1
  else if fits guess then guess
  else guess - 1

/-- Tries grids of growing digit count. -/
def searchDigits (i : Interval) (lead : Int) : Nat → Nat → Option Scaled
  | 0, _ => none
  | fuel + 1, n =>
    match i.pick? (lead - n) with
    | some d => some d
    | none => searchDigits i lead fuel (n + 1)

/-- Drops the trailing zeros of the digits. -/
def Scaled.strip (d : Scaled) : Nat → Scaled
  | 0 => d
  | fuel + 1 =>
    if d.digits ≠ 0 ∧ d.digits % 10 = 0 then
      Scaled.strip ⟨d.digits / 10, d.exponent + 1⟩ fuel
    else d

/-- The shortest decimal that rounds to `m · 2^e`, for a positive `m`.
Seventeen digits always suffice. -/
def shortest (m : Nat) (e : Int) : Scaled :=
  let i := Interval.ofDouble m e
  let found := (searchDigits i (leadingExponent i.value i.den) 17 0).getD ⟨m, e⟩
  found.strip 20

/-! ## Text -/

/-- The decimal digits of a natural number. -/
def digitsText (n : Nat) : String := String.ofList (Nat.toDigits 10 n)

/-- An integer in decimal. -/
def intText (i : Int) : String :=
  match i with
  | .ofNat n => digitsText n
  | .negSucc n => "-" ++ digitsText (n + 1)

/-- That many zeros. -/
def zeros (n : Nat) : String := String.ofList (List.replicate n '0')

/-- An exponent with its sign and at least two digits. -/
def exponentText (x : Int) : String :=
  let digits := digitsText x.natAbs
  (if x < 0 then "-" else "+") ++ (if digits.length < 2 then "0" ++ digits else digits)

/-- Digits with a point after the first `k`, filled with zeros on either
side where the digits do not reach. -/
def placePoint (digits : String) (k : Int) : String :=
  let n : Int := digits.length
  if k ≤ 0 then "0." ++ zeros (-k).toNat ++ digits
  else if n ≤ k then digits ++ zeros (k - n).toNat ++ ".0"
  else (digits.take k.toNat).toString ++ "." ++ (digits.drop k.toNat).toString

/-- A positive decimal: positional when its leading digit stands between
`10^-4` and `10^15`, otherwise one digit, a point where more follow, and an
exponent. -/
def Scaled.text (d : Scaled) : String :=
  let digits := digitsText d.digits
  let lead : Int := d.exponent + digits.length - 1
  if -4 ≤ lead ∧ lead < 16 then placePoint digits (lead + 1)
  else
    let head := (digits.take 1).toString
    let tail := (digits.drop 1).toString
    (if tail.isEmpty then head else head ++ "." ++ tail) ++ "e" ++ exponentText lead

/-- The text of a double: the shortest decimal that reads back, always with a
point or an exponent; `nan`, `inf` and `-inf` otherwise. -/
def floatText (x : Float) : String :=
  match Binary64.read x with
  | .nan => "nan"
  | .infinite negative => if negative then "-inf" else "inf"
  | .finite negative m e =>
    (if negative then "-" else "") ++
      (if m = 0 then "0.0" else (shortest m e).text)

end Multistage.Decimal
