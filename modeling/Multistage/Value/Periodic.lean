/-
Multistage.Value.Periodic — things that are due every so often.

A period is a number as it was given.  It divides a count when the count is a
whole multiple of it, also when the period is a fraction; a period that is not
positive may stand for "never".
-/
import Multistage.Value.Convert

namespace Multistage.Value

/-- Whether a count is a whole multiple of a period.  Only numbers are
periods, and zero divides nothing. -/
def divides (period : Value) (count : Nat) : Except Failure Bool :=
  match period with
  | bool b => if b then .ok true else .error .wrongKind
  | int i => if i = 0 then .error .wrongKind else .ok (decide ((count : Int) % i = 0))
  | float x =>
    match Binary64.toFraction? x with
    | some (num, den) =>
      if num = 0 then .error .wrongKind else .ok (decide ((count : Int) * den % num = 0))
    | none => .ok false
  | null | string _ | list _ | record _ => .error .wrongKind

/-- Whether something with a period is due at a count; with a period that is
not positive it never is. -/
def isDue (period : Value) (count : Nat) : Except Failure Bool := do
  if ← period.isAtMost 0 then return false
  match period with
  | float x => if x.isNaN then return false else period.divides count
  | _ => period.divides count

end Multistage.Value
