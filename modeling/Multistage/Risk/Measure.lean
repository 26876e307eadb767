/-
Multistage.Risk.Measure — from scenario results to one cut.

A risk measure turns a batch into a cut.  The expectation averages the
scenarios; the nested measure first moves probability to the worst tail,
using a scratch buffer that only ever grows; a staged measure hands the batch
to the measure it selects for the stage, which is then asked for a cut without
being told the stage.  Callers may add measures of their own, overriding the
plain rule, the staged rule, or neither.
-/
import Multistage.Named
import Multistage.Risk.TailArray

namespace Multistage

/-- How a measure builds cuts.  Stages and Markov states are named by values,
which are their numbers in a model.  `slot` names the scratch buffer of a nested
measure; two occurrences with one slot share it.  A foreign rule is a value
that was given in place of a measure. -/
inductive Rule (α : Type) where
  | expectation
  | nested (beta lambda : α) (slot : Nat)
  | staged (select : Value → Value → Rule α) (fallback : Rule α)
  | custom (typeName : String) (cut : Option (Batch α → Cut α))
      (stageCut : Option (Batch α → Value → Value → Except Failure (Cut α)))
  | foreign (given : Value)

instance {α : Type} : Inhabited (Rule α) := ⟨.expectation⟩

/-- The scratch buffers by slot. -/
abbrev Buffers (α : Type) := Nat → List α

/-- A measure and its scratch buffers. -/
structure RiskMeasure (α : Type) where
  rule : Rule α
  buffers : Buffers α := fun _ => []

variable {α : Type} [Scalar α]

/-! ## Expectation -/

/-- Adds the contribution of further scenarios to intercept and
coefficients, in scenario order. -/
def Cut.addScenarios (x : Point α) : List (List α) → List α → List α → Cut α → Cut α
  | pi :: duals, theta :: objectives, w :: weights, c =>
    Cut.addScenarios x duals objectives weights
      { intercept := c.intercept + (theta - Scalar.dot pi x) * w
        coefficients := List.zipWith (· + ·) c.coefficients (pi.map (· * w)) }
  | _, _, _, c => c

/-- The weighted sum of the scenarios' own cuts
`theta + pi · (y - x)`. -/
def Batch.weightedCut (b : Batch α) (weights : List α) : Cut α :=
  match b.duals, b.objectives, weights with
  | pi :: duals, theta :: objectives, w :: weights =>
    Cut.addScenarios b.state duals objectives weights
      { intercept := (theta - Scalar.dot pi b.state) * w
        coefficients := pi.map (· * w) }
  | _, _, _ => ⟨0, []⟩

/-! ## Scratch buffers -/

/-- A buffer of at least the given length: a shorter one is filled with
zeros. -/
def growBuffer (n : Nat) (buffer : List α) : List α :=
  buffer ++ List.replicate (n - buffer.length) 0

/-- The buffers with one slot replaced. -/
def Buffers.put (b : Buffers α) (slot : Nat) (buffer : List α) : Buffers α :=
  fun k => if k = slot then buffer else b k

/-! ## Cuts -/

namespace Rule

/-- The name of a measure's kind, as messages show it. -/
def typeName : Rule α → String
  | expectation => "Expectation"
  | nested _ _ _ => "NestedCVaR"
  | staged _ _ => "StageDependentRisk"
  | custom name _ _ => name
  | foreign given => given.kindName

/-- The one-line description of a measure. -/
def describe (r : Rule Float) : String :=
  match r with
  | nested beta lambda _ =>
    "NestedCVaR(beta=" ++ Decimal.floatText beta ++ ", lambda_=" ++ Decimal.floatText lambda ++ ")"
  | foreign given => given.quoted
  | r => r.typeName ++ "()"

/-- True of something that is no risk measure. -/
def isForeign : Rule α → Bool
  | foreign _ => true
  | _ => false

/-- The nested cut: weights are written into the measure's buffer, and the
first of them, one per scenario, weigh the batch. -/
def nestedCut (beta lambda : α) (slot : Nat) (sense : Sense) (b : Batch α) :
    Transition (Buffers α) (Cut α) := do
  let n := b.size
  let grown := growBuffer n ((← get) slot)
  modify fun s => s.put slot grown
  if !b.isPlain then
    discard (Transition.outcome
      (reweightArray (Tensor.vector grown) (.ok sense) b.probabilityArray b.objectiveArray
        lambda beta))
    Batch.checkSum b.objectiveShape [] b.state.length
  match reweight grown (.ok sense) b.probabilities b.objectives lambda beta with
  | .ok filled =>
    modify fun s => s.put slot filled
    return b.weightedCut (filled.take n)
  | .error e => throw e

/-- The cut that a measure builds from a batch, at a (stage, Markov state)
pair when one is given.  A staged measure looks the stage up by name. -/
def cut : Rule α → Sense → Batch α → Option (Value × Value) → Transition (Buffers α) (Cut α)
  | expectation, _, b, _ => do
    Batch.checkSum b.objectiveShape b.probabilityShape b.state.length
    return b.weightedCut b.probabilities
  | nested beta lambda slot, sense, b, _ => nestedCut beta lambda slot sense b
  | staged select _, sense, b, some (t, i) => do
    Transition.outcome (Named.checkName t)
    (select t i).cut sense b none
  | staged _ fallback, sense, b, none => fallback.cut sense b none
  | custom _ _ (some f), _, b, some (t, i) => Transition.outcome (f b t i)
  | custom _ (some f) _, _, b, _ => return f b
  | custom name none _, _, _, _ => throw (.unsupportedMeasure name)
  | foreign given, _, _, _ => throw (.unsupportedMeasure given.kindName)

/-- Builds a cut from a batch and a sense as they were read: what is no
measure is refused first, then a bad batch, then an unknown sense. -/
def generate (r : Rule α) (sense : Except Failure Sense) (batch : Except Failure (Batch α))
    (pair : Option (Value × Value)) : Transition (Buffers α) (Cut α) := do
  if r.isForeign then throw (.unsupportedMeasure r.typeName)
  let b ← Transition.outcome batch
  let s ← Transition.outcome sense
  r.cut s b pair

end Rule

/-! ## Measures -/

namespace RiskMeasure

/-- The length of the scratch buffer, for a measure that owns one. -/
def storageSize (m : RiskMeasure α) : Option Nat :=
  match m.rule with
  | .nested _ _ slot => some (m.buffers slot).length
  | _ => none

/-- Builds a cut with the measure's own buffers. -/
def generate (sense : Except Failure Sense) (batch : Except Failure (Batch α))
    (pair : Option (Value × Value)) : Transition (RiskMeasure α) (Cut α) :=
  Transition.of fun m =>
    let (r, buffers) := (m.rule.generate sense batch pair).perform m.buffers
    (r, { m with buffers })

end RiskMeasure

/-! ## Construction from values -/

/-- A nested measure; both parameters have to lie between zero and one. -/
def Rule.nestedOfValues (beta lambda : Value) (slot : Nat) : Except Failure (Rule Float) := do
  for (name, v) in [("beta", beta), ("lambda", lambda)] do
    if let some why ← v.unitIntervalFault? name then throw (.misconfigured why)
  return .nested (← beta.toFloat) (← lambda.toFloat) slot

/-- The measure that a table assigns to a stage, or the default.  Of several
entries for a stage the last one counts. -/
def Rule.ofStageTable (table : List (Value × Rule α)) (fallback : Rule α) : Rule α :=
  .staged
    (fun t _ => ((table.reverse.find? fun (k, _) => k.isSame t).map Prod.snd).getD fallback)
    fallback

end Multistage
