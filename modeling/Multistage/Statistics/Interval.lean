/-
Multistage.Statistics.Interval — mean, deviation and confidence interval.
-/
import Multistage.Statistics.Pairwise
import Multistage.Value.Number

namespace Multistage

/-- An interval given by its ends. -/
structure Interval (α : Type) where
  lower : α
  upper : α
  deriving Repr, DecidableEq

variable {α : Type} [Statistical α]

/-- The mean of a sample that is not empty. -/
def mean (xs : List α) : α := Scalar.pairwiseTotal xs / Scalar.ofNat xs.length

/-- The standard deviation of a sample of at least two, from squared
distances over one less than the size. -/
def deviation (xs : List α) : α :=
  let m := mean xs
  let squares := xs.map fun x => (x - m) * (x - m)
  Statistical.sqrt (Scalar.pairwiseTotal squares / Scalar.ofNat (xs.length - 1))

/-- Half the width of the interval whose upper end is a quantile of a sample
of at least two. -/
def margin (xs : List α) (p : α) : α :=
  let n := xs.length
  Statistical.studentQuantile p (n - 1) * deviation xs / Statistical.sqrt (Scalar.ofNat n)

/-- Mean of a sample and the interval whose upper end is a quantile.  There is
none without samples; with a single one the interval is that sample. -/
def intervalAt (xs : List α) (p : α) : Option (α × Interval α) :=
  match xs with
  | [] => none
  | [_] => some (mean xs, ⟨mean xs, mean xs⟩)
  | _ => some (mean xs, ⟨mean xs - margin xs p, mean xs + margin xs p⟩)

/-- Mean and confidence interval of a sample: half of what the level leaves
lies above the interval. -/
def confidenceInterval (xs : List α) (level : α) : Option (α × Interval α) :=
  intervalAt xs (1 - (1 - level) / Scalar.ofNat 2)

/-- Mean and confidence interval of a sample at a level as it was given.  The
level is looked at only if there are at least two samples. -/
def confidenceIntervalOf [Statistical Float] (xs : List Float) (level : Value) :
    Except Failure (Option (Float × Interval Float)) := do
  if xs.length < 2 then return intervalAt xs 1.0
  let rest ← (Number.whole 1).sub (← level.number)
  return intervalAt xs (1.0 - (← rest.quotient (.whole 2)))

/-- Mean, where there is one, and deviation of a sample. -/
structure SampleStatistics (α : Type) where
  mean : Option α
  deviation : α

/-- Mean and deviation of simulated objectives; fewer than two of them do
not deviate. -/
def objectiveStatistics (xs : List α) : SampleStatistics α :=
  match xs with
  | [] => ⟨none, 0⟩
  | [_] => ⟨some (mean xs), 0⟩
  | _ => ⟨some (mean xs), deviation xs⟩

end Multistage
