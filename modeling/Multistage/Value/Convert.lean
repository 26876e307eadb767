/-
Multistage.Value.Convert — numbers out of values.

A value converts to a whole number by truncation and to a double by rounding;
texts are read as numerals.  A value of the wrong kind, a text that is no
numeral and a number without a counterpart are three different failures.
-/
import Multistage.Failure
import Multistage.Decimal.Numeral

namespace Multistage.Value

/-! ## Conversions -/

/-- The double nearest to a whole number, which may be too large. -/
def floatOfInt (i : Int) : Except Failure Float :=
  match Binary64.nearest? i 1 with
  | some x => .ok x
  | none => .error .tooLarge

/-- A double cut off towards zero. -/
def truncate (x : Float) : Except Failure Int :=
  match Binary64.read x with
  | .nan => .error (.badValue "cannot convert float NaN to integer")
  | .infinite _ => .error .tooLarge
  | .finite negative m e =>
    let (num, den) := Binary64.fraction m e
    let size : Int := (num / den : Nat)
    .ok (if negative then -size else size)

/-- The value as a whole number. -/
def toInt : Value → Except Failure Int
  | null => .error .wrongKind
  | bool b => .ok (if b then 1 else 0)
  | int i => .ok i
  | float x => truncate x
  | string s =>
    match Decimal.parseInt? s with
    | some i => .ok i
    | none => .error (.badValue
        ("invalid literal for int() with base 10: " ++ Text.quoted s))
  | list _ | record _ => .error .wrongKind

/-- The value as a double. -/
def toFloat : Value → Except Failure Float
  | null => .error .wrongKind
  | bool b => .ok (if b then 1.0 else 0.0)
  | int i => floatOfInt i
  | float x => .ok x
  | string s =>
    match Decimal.parseFloat? s with
    | some x => .ok x
    | none => .error (.badValue ("could not convert string to float: " ++ Text.quoted s))
  | list _ | record _ => .error .wrongKind

/-! ## Lists -/

/-- What a value is a list of: a text is the list of its characters, a record
that of its names; other values are no lists. -/
def elements? : Value → Option (List Value)
  | list vs => some vs
  | string s => some (s.toList.map fun c => string (String.singleton c))
  | record fields => some (fields.map fun (k, _) => string k)
  | null | bool _ | int _ | float _ => none

/-- The items of a value that stands for a list. -/
def elements (v : Value) : Except Failure (List Value) :=
  match v.elements? with
  | some vs => .ok vs
  | none => .error .wrongKind

/-! ## Comparison with a whole number -/

/-- The exact order between a double and a whole number. -/
def floatBelow (x : Float) (n : Int) : Bool :=
  match Binary64.read x with
  | .nan => false
  | .infinite negative => negative
  | .finite negative m e =>
    let (num, den) := Binary64.fraction m e
    decide ((if negative then -(num : Int) else num) < n * den)

/-- Whether a whole number is below a double, both taken exactly. -/
def floatAbove (x : Float) (n : Int) : Bool :=
  match Binary64.read x with
  | .nan => false
  | .infinite negative => !negative
  | .finite negative m e =>
    let (num, den) := Binary64.fraction m e
    decide (n * den < (if negative then -(num : Int) else num))

/-- Whether a number is below a whole number; only numbers compare. -/
def isBelow (v : Value) (n : Int) : Except Failure Bool :=
  match v with
  | bool b => .ok (decide ((if b then 1 else 0 : Int) < n))
  | int i => .ok (decide (i < n))
  | float x => .ok (floatBelow x n)
  | null | string _ | list _ | record _ => .error .wrongKind

/-- Whether a number is at most a whole number. -/
def isAtMost (v : Value) (n : Int) : Except Failure Bool :=
  match v with
  | float x =>
    .ok (floatBelow x n || (x == Float.ofInt n))
  | _ => v.isBelow (n + 1)

/-- Truth of a value: zero, the empty text, the empty list and the missing
value are false. -/
def truthy : Value → Bool
  | null => false
  | bool b => b
  | int i => i != 0
  | float x => !(x == 0.0)
  | string s => !s.isEmpty
  | list items => !items.isEmpty
  | record fields => !fields.isEmpty

/-! ## The unit interval -/

/-- Why a value is no number between zero and one, if it is not.  A whole
number beyond the doubles is a failure of its own. -/
def unitIntervalFault? (name : String) (v : Value) :
    Except Failure (Option Misconfiguration) :=
  match v.toFloat with
  | .ok x =>
    .ok (if 0.0 ≤ x ∧ x ≤ 1.0 then none else some (.outsideUnitInterval name v))
  | .error .tooLarge => .error .tooLarge
  | .error _ => .ok (some (.notANumber name v))

end Multistage.Value
