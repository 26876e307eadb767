/-
Multistage.Decimal.Places — decimals with a given number of places or digits.

Both formats start from the exact value of the double and round once, a half
going to the even neighbour.  `fixed` keeps a number of places after the
point; `general` keeps a number of significant digits, drops trailing zeros
and turns to an exponent when the leading digit is far from the point.
-/
import Multistage.Decimal.Shortest

namespace Multistage.Decimal

-- Powers are the plain ones, also where a library of algebra offers its own.
attribute [local instance (high)] instPowNat

/-- A double by its sign and the text of its magnitude, which is a quotient of
whole numbers. -/
def signed (magnitude : Nat → Nat → String) (x : Float) : String :=
  match Binary64.read x with
  | .nan => "nan"
  | .infinite negative => if negative then "-inf" else "inf"
  | .finite negative m e =>
    let (num, den) := Binary64.fraction m e
    (if negative then "-" else "") ++ magnitude num den

/-- The digits on both sides of a point; without digits after it there is no
point unless it is kept. -/
def pointed (keepPoint : Bool) (whole fraction : String) : String :=
  if fraction.isEmpty && !keepPoint then whole else whole ++ "." ++ fraction

/-! ## Fixed places -/

/-- `n · 10^-places`, with all its places written. -/
def placesText (n places : Nat) (keepPoint : Bool := false) : String :=
  let digits := digitsText n
  let padded := zeros (places + 1 - digits.length) ++ digits
  let whole := padded.length - places
  pointed keepPoint (padded.take whole).toString (padded.drop whole).toString

/-- A quotient with a fixed number of places. -/
def fixedText (places : Nat) (keepPoint : Bool) (num den : Nat) : String :=
  placesText (Binary64.roundHalfEven (num * 10 ^ places) den) places keepPoint

/-- A double with a fixed number of places. -/
def fixed (places : Nat) (x : Float) : String := signed (fixedText places false) x

/-! ## Significant digits -/

/-- `num / den` rounded to `digits` significant digits: the digits and the
exponent of the leading one. -/
def significant (digits num den : Nat) : Nat × Int :=
  let lead := leadingExponent num den
  let n := roundAt num den (lead - digits + 1)
  if n = 10 ^ digits then (10 ^ (digits - 1), lead + 1) else (n, lead)

/-- The digits and the exponent of the leading one; those of zero are all
zeros. -/
def significantText (digits num den : Nat) : String × Int :=
  if num = 0 then (zeros digits, 0)
  else
    let (n, lead) := significant digits num den
    (digitsText n, lead)

/-- Digits without the zeros at their end. -/
def dropZeros (digits : String) : String :=
  String.ofList (digits.toList.reverse.dropWhile (· == '0')).reverse

/-- A quotient with one digit before the point, a number of places after it,
and an exponent. -/
def scientificText (places : Nat) (keepPoint : Bool) (num den : Nat) : String :=
  let (text, lead) := significantText (places + 1) num den
  pointed keepPoint (text.take 1).toString (text.drop 1).toString ++ "e" ++ exponentText lead

/-- A quotient with a number of significant digits, at least one.  Zeros at
the end are dropped unless they are kept. -/
def generalText (digits : Nat) (keepZeros : Bool) (num den : Nat) : String :=
  let digits := max digits 1
  let (text, lead) := significantText digits num den
  let fraction (s : String) : String := if keepZeros then s else dropZeros s
  if -4 ≤ lead ∧ lead < digits then
    if lead < 0 then pointed keepZeros "0" (fraction (zeros (-lead - 1).toNat ++ text))
    else pointed keepZeros (text.take (lead.toNat + 1)).toString
      (fraction (text.drop (lead.toNat + 1)).toString)
  else pointed keepZeros (text.take 1).toString (fraction (text.drop 1).toString) ++
    "e" ++ exponentText lead

/-- A double with a number of significant digits. -/
def general (digits : Nat) (x : Float) : String := signed (generalText digits false) x

/-! ## Width -/

/-- Text filled with blanks on the left up to a width. -/
def padLeft (width : Nat) (s : String) : String :=
  String.ofList (List.replicate (width - s.length) ' ') ++ s

/-! ## Rounding to a grid -/

/-- The double nearest to a whole number, a half going to the even
neighbour; doubles beyond `2^52` are whole already. -/
def roundWhole (x : Float) : Float :=
  match Binary64.read x with
  | .finite negative m e =>
    let (num, den) := Binary64.fraction m e
    let r := Binary64.nearest (Binary64.roundHalfEven num den) 1
    if negative then -r else r
  | _ => x

/-- Rounding in three steps of double arithmetic: scale up by `10^6`, round
to a whole number, scale down. -/
def roundSix (x : Float) : Float := roundWhole (x * 1000000.0) / 1000000.0

end Multistage.Decimal
