/-
Multistage.Model.Figures — what is known of the value of a policy.

A model keeps a bound on the optimal value and a confidence interval of the
policy's value.  Both are computed; a caller may also enter them, in whatever
form.  An entered figure is kept as it is and stands until the next one is
computed.  The gap between the two figures looks at no more of them than it
needs, so an unusable figure shows only where it is used.
-/
import Multistage.Sense
import Multistage.Statistics.Interval
import Multistage.Value.Number

namespace Multistage

/-! ## Figures -/

/-- Figures as a caller entered them. -/
structure Entered where
  bound : Option Value := none
  interval : Option (List Value) := none

/-- The bound and the interval that were computed last, and those entered
since. -/
structure Figures (α : Type) where
  bound : Option α := none
  interval : Option (Interval α) := none
  entered : Entered := {}

namespace Figures

variable {α : Type}

/-- The figures with a computed bound. -/
def withBound (f : Figures α) (bound : α) : Figures α :=
  { f with bound := some bound, entered := { f.entered with bound := none } }

/-- The figures with a computed interval; there may be none. -/
def withInterval (f : Figures α) (interval : Option (Interval α)) : Figures α :=
  { f with interval, entered := { f.entered with interval := none } }

/-- The figures with an entered bound. -/
def enterBound (f : Figures α) (v : Value) : Figures α :=
  { f with entered := { f.entered with bound := some v } }

/-- The figures with an entered interval. -/
def enterInterval (f : Figures α) (ends : List Value) : Figures α :=
  { f with entered := { f.entered with interval := some ends } }

/-! ## Figures as values -/

/-- The ends of an interval; without one they are not numbers. -/
def ends (interval : Option (Interval Float)) : List Value :=
  match interval with
  | none => [.float Binary64.nan, .float Binary64.nan]
  | some i => [.float i.lower, .float i.upper]

/-- The bound that stands, `null` without one. -/
def boundValue (f : Figures Float) : Value :=
  f.entered.bound.getD ((f.bound.map Value.float).getD .null)

/-- The ends of the interval that stands. -/
def intervalValues (f : Figures Float) : List Value :=
  f.entered.interval.getD (ends f.interval)

/-- The gap of the figures that stand: from the bound up to the interval for
costs, from the interval up to the bound for profits, relative to the bound but
at most absolute.  Without a bound it is infinite.  An interval has two ends, of
which only the one on the side of the bound is looked at. -/
def gapOfValues (f : Figures Float) (sense : Sense) : Except Failure Float := do
  match f.boundValue, f.intervalValues with
  | .null, _ => return Binary64.infinity
  | bound, [lower, upper] =>
    let bound ← bound.number
    let scale := bound.magnitude.max (.real 1.0)
    let distance ← match sense with
      | .min => (← lower.number).sub bound
      | .max => bound.sub (← upper.number)
    distance.quotient scale
  | _, _ => throw (.badValue "an interval has two ends")

/-- Whether the gap of the figures that stand is below a tolerance. -/
def meets (tolerance : Value) (f : Figures Float) (sense : Sense) : Except Failure Bool := do
  let gap ← f.gapOfValues sense
  return (Number.real gap).isBelow (← tolerance.number)

end Figures

end Multistage
