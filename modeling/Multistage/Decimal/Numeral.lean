/-
Multistage.Decimal.Numeral — reading numbers from text.

A numeral may be surrounded by blanks, carry a sign, and separate its digits
by single underscores.  A whole number has digits only; a real number may
have a point and an exponent, or be the name of an infinity or of the value
that is not a number.  A real number is read as the nearest double.  A whole
number is read from a limited number of digits only.
-/
import Multistage.Binary64.Exact
import Multistage.Text.Blank
import Multistage.Text.Digit

namespace Multistage.Decimal

-- Powers are the plain ones, also where a library of algebra offers its own.
attribute [local instance (high)] instPowNat

/-! ## Digits -/

/-- The digits of a base at the front: their number and value, and what
follows.  An underscore is read only between two digits. -/
def readDigitsIn (digit? : Char → Option Nat) (base : Nat) :
    List Char → Nat → Nat → Nat × Nat × List Char
  | [], count, value => (count, value, [])
  | c :: rest, count, value =>
    match digit? c with
    | some d => readDigitsIn digit? base rest (count + 1) (value * base + d)
    | none =>
      match rest with
      | next :: _ =>
        if c = '_' ∧ 0 < count ∧ (digit? next).isSome then
          readDigitsIn digit? base rest count value
        else (count, value, c :: rest)
      | [] => (count, value, [c])

/-- The decimal digits at the front. -/
def readDigits : List Char → Nat → Nat → Nat × Nat × List Char :=
  readDigitsIn Text.digitValue? 10

/-- A sign at the front: true for minus. -/
def readSign : List Char → Bool × List Char
  | '-' :: rest => (true, rest)
  | '+' :: rest => (false, rest)
  | cs => (false, cs)

/-! ## Whole numbers -/

/-- The largest number of digits of a whole number in a text, zeros in front
included. -/
def maxDigits : Nat := 4300

/-- The whole number that a text denotes. -/
def parseInt? (s : String) : Option Int :=
  let (negative, cs) := readSign (Text.trimChars Text.isSpace s.toList)
  match readDigits cs 0 0 with
  | (count, value, []) =>
    if count = 0 ∨ maxDigits < count then none
    else some (if negative then -(value : Int) else value)
  | _ => none

/-- The natural number that a text with a hexadecimal prefix denotes.  An
underscore may follow the prefix. -/
def parseHex? (s : String) : Option Nat :=
  match Text.trimChars Text.isSpace s.toList with
  | '0' :: 'x' :: digits =>
    match readDigitsIn Text.hexDigitValue? 16 digits 1 0 with
    | (count, value, []) => if 1 < count then some value else none
    | _ => none
  | _ => none

/-! ## Real numbers -/

/-- A positive or zero decimal `digits · 10^exponent` as the nearest double. -/
def decimalFloat (digits : Nat) (exponent : Int) : Float :=
  if digits = 0 then 0.0
  else if 400 < exponent + (digits.log2 / 4 : Nat) then Binary64.infinity
  else if exponent + (digits.log2 : Nat) < -1500 then 0.0
  else match exponent with
    | .ofNat e => Binary64.nearest (digits * 10 ^ e : Nat) 1
    | .negSucc e => Binary64.nearest digits (10 ^ (e + 1))

/-- The exponent part, zero when there is none. -/
def readExponent : List Char → Option Int
  | [] => some 0
  | c :: rest =>
    if c = 'e' ∨ c = 'E' then
      let (negative, cs) := readSign rest
      match readDigits cs 0 0 with
      | (count, value, []) =>
        if count = 0 then none else some (if negative then -(value : Int) else value)
      | _ => none
    else none

/-- The size of a real number without its sign. -/
def readMagnitude (cs : List Char) : Option Float :=
  let name := String.ofList (cs.map Char.toLower)
  if name = "inf" ∨ name = "infinity" then some Binary64.infinity
  else if name = "nan" then some Binary64.nan
  else
    let (count, whole, rest) := readDigits cs 0 0
    match rest with
    | '.' :: after =>
      let (places, part, rest') := readDigits after 0 0
      if count + places = 0 then none
      else (readExponent rest').map fun x =>
        decimalFloat (whole * 10 ^ places + part) (x - places)
    | _ =>
      if count = 0 then none else (readExponent rest).map (decimalFloat whole)

/-- The real number that a text denotes, as the nearest double. -/
def parseFloat? (s : String) : Option Float :=
  let (negative, cs) := readSign (Text.trimChars Text.isSpace s.toList)
  (readMagnitude cs).map fun x => if negative then -x else x

end Multistage.Decimal
