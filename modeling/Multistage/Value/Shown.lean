/-
Multistage.Value.Shown — numbers of reports as they were given.

A report shows its figures with a number of places or of significant digits.
Whole numbers and truth values are shown as the doubles they become; a text
is a bad figure, and what is no number at all is none.
-/
import Multistage.Decimal.Places
import Multistage.Value.Number

namespace Multistage.Value

/-- A figure of a report in a format for doubles. -/
def shown (format : Float → String) (v : Value) : Except Failure String := do
  match v with
  | .string _ => throw (.badValue "a figure has to be a number")
  | v => return format (← (← v.number).toFloat)

/-- A figure with a number of significant digits. -/
def general (digits : Nat) (v : Value) : Except Failure String :=
  v.shown (Decimal.general digits)

/-- A figure with a fixed number of places. -/
def fixed (places : Nat) (v : Value) : Except Failure String := v.shown (Decimal.fixed places)

end Multistage.Value
