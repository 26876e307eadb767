/-
Multistage.Statistics.Pairwise — sums of many numbers.

Up to seven numbers are added one after another.  Up to 128 go into eight
running sums, turn by turn, which are then added in pairs; what does not fill
a turn is added last.  More than that are cut in two, near the middle and at a
multiple of eight, and the halves are summed in the same way.  In exact
arithmetic it is the sum like any other; in doubles the roundings of a long
sum stay small.
-/
import Multistage.Scalar

namespace Multistage.Scalar

variable {α : Type} [Scalar α]

/-- The sum of eight running sums, added in pairs. -/
def laneTotal : List α → α
  | [a, b, c, d, e, f, g, h] => ((a + b) + (c + d)) + ((e + f) + (g + h))
  | sums => total sums

/-- Adds numbers to eight running sums, turn by turn, and then the rest to
their sum. -/
def addToLanes (sums : List α) : List α → α
  | a :: b :: c :: d :: e :: f :: g :: h :: rest =>
    addToLanes (List.zipWith (· + ·) sums [a, b, c, d, e, f, g, h]) rest
  | rest => rest.foldl (· + ·) (laneTotal sums)

/-- The pairwise sum of numbers. -/
def pairwiseTotal (xs : List α) : α :=
  if xs.length < 8 then total xs
  else if xs.length ≤ 128 then addToLanes (xs.take 8) (xs.drop 8)
  else
    let half := xs.length / 2 / 8 * 8
    pairwiseTotal (xs.take half) + pairwiseTotal (xs.drop half)
termination_by xs.length
decreasing_by
  all_goals simp only [List.length_take, List.length_drop]
  all_goals omega

end Multistage.Scalar
