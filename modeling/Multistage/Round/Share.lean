/-
Multistage.Round.Share — how many passes each worker runs.

The passes of a round are shared out evenly and rounded up: each of `k`
workers runs the ceiling of `n / k`, where the quotient is first rounded to
the nearest double.
-/
import Multistage.Value.Convert

namespace Multistage

/-- The least whole number at or above a double. -/
def ceiling (x : Float) : Except Failure Int :=
  match Binary64.read x with
  | .nan => .error (.badValue "cannot convert float NaN to integer")
  | .infinite _ => .error .tooLarge
  | .finite negative m e =>
    let (num, den) := Binary64.fraction m e
    .ok (Binary64.ceilDiv (if negative then -(num : Int) else num) den)

/-- The ceiling of a quotient of whole numbers, rounded to a double
first. -/
def ceilingOfQuotient (n : Int) (k : Nat) : Except Failure Int :=
  if n = 0 then .ok 0 else
  let (m, e) := Binary64.roundQuotient n.natAbs k
  if Binary64.overflows m e then .error .tooLarge else
  let (num, den) := Binary64.fraction m e
  .ok (Binary64.ceilDiv (if n < 0 then -(num : Int) else num) den)

/-- The whole number that a value is, if it is one. -/
def Value.whole? : Value → Option Int
  | .bool b => some (if b then 1 else 0)
  | .int i => some i
  | _ => none

/-- A number as a double. -/
def Value.numeric : Value → Except Failure Float
  | .string _ => .error .wrongKind
  | v => v.toFloat

/-- Passes per worker: the ceiling of `n / workers`. -/
def iterationsPerWorker (n workers : Value) : Except Failure Int := do
  if ← workers.isBelow 1 then throw (.misconfigured (.belowOne "n_workers" workers))
  match n.whole?, workers.whole? with
  | some n, some k => ceilingOfQuotient n k.toNat
  | _, _ => ceiling ((← n.numeric) / (← workers.numeric))

end Multistage
