/-
Multistage.Value.Number — arithmetic with numbers as they were given.

A number is whole and exact, of any size, or a double.  Sums and differences
of whole numbers are whole; as soon as a double takes part the other operand
becomes the nearest double, which fails for a whole number beyond all doubles.
A quotient is the double nearest to the exact one.  Comparisons are exact.
-/
import Multistage.Value.Convert

namespace Multistage

/-- A number as it was given. -/
inductive Number where
  | whole (i : Int)
  | real (x : Float)
  deriving DecidableEq

/-- The number that a value is; truth counts as one and zero. -/
def Value.number : Value → Except Failure Number
  | bool b => .ok (.whole (if b then 1 else 0))
  | int i => .ok (.whole i)
  | float x => .ok (.real x)
  | null | string _ | list _ | record _ => .error .wrongKind

namespace Number

/-- The number as a value. -/
def toValue : Number → Value
  | whole i => .int i
  | real x => .float x

/-- The number as a double. -/
def toFloat : Number → Except Failure Float
  | whole i => Value.floatOfInt i
  | real x => .ok x

/-- An operation on two numbers: exact on whole ones, else on doubles. -/
def combine (exact : Int → Int → Int) (rounded : Float → Float → Float) :
    Number → Number → Except Failure Number
  | whole a, whole b => .ok (whole (exact a b))
  | a, b => return real (rounded (← a.toFloat) (← b.toFloat))

/-- The sum of two numbers. -/
def add : Number → Number → Except Failure Number := combine (· + ·) (· + ·)

/-- The difference of two numbers. -/
def sub : Number → Number → Except Failure Number := combine (· - ·) (· - ·)

/-- Distance from zero. -/
def magnitude : Number → Number
  | whole i => whole i.natAbs
  | real x => real x.abs

/-- The quotient of two numbers, the second of which is not zero. -/
def quotient : Number → Number → Except Failure Float
  | whole a, whole b =>
    match Binary64.nearest? (if b < 0 then -a else a) b.natAbs with
    | some x => .ok x
    | none => .error .tooLarge
  | a, b => return (← a.toFloat) / (← b.toFloat)

/-- Whether a number is below another one, both taken exactly. -/
def isBelow : Number → Number → Bool
  | whole a, whole b => decide (a < b)
  | real x, real y => decide (x < y)
  | real x, whole b => Value.floatBelow x b
  | whole a, real y => Value.floatAbove y a

/-- The larger of two numbers; the first unless the second is above it. -/
def max (a b : Number) : Number := if a.isBelow b then b else a

/-- Numbers added from left to right, starting at zero. -/
def total (ns : List Number) : Except Failure Number := ns.foldlM add (whole 0)

end Number

/-! ## Names -/

/-- The value that stands for all values of one name: a number that is whole
stands as a whole number, truth as one and zero, and any other value as
itself. -/
def Value.nominal : Value → Value
  | bool b => int (if b then 1 else 0)
  | float x =>
    match Binary64.toFraction? x with
    | some (num, den) => if num % den = 0 then int (num / den) else float x
    | none => float x
  | v => v

/-- Whether two values are one name. -/
def Value.isSame (a b : Value) : Bool := a.nominal == b.nominal

end Multistage
