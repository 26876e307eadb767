/-
Multistage.Stage.Closed — stage problems in closed form.

A closed stage has no decisions: its objective is an affine function of the
incoming state, and every outgoing state is an affine function of the incoming
one, kept within limits.  It needs no solver, and its duals can be written
down: they count where the outgoing state is strictly within its limits.
-/
import Multistage.Stage.Problem

namespace Multistage

/-- A scenario of a closed stage: the objective `constant + cost · x` and the
outgoing state `gain * x + add` before it is kept within limits.  A first state
below `failBelow` admits no solution. -/
structure ClosedScenario (α : Type) where
  cost : List α
  constant : α
  gain : List α
  add : List α
  failBelow : Option α
  solverFails : Bool

/-- A stage problem in closed form. -/
structure ClosedStage (α : Type) where
  stateCount : Int
  lower : List α
  upper : List α
  scenarios : List (ClosedScenario α)
  probabilities : Option (Tensor α)

namespace ClosedStage

variable {α : Type} [Scalar α]

/-- The outgoing state before it is kept within limits. -/
def rawState (s : ClosedScenario α) (x : Point α) : Point α :=
  List.zipWith (· + ·) (List.zipWith (· * ·) s.gain x) s.add

/-- A number kept within limits. -/
def clamp (a lower upper : α) : α := Scalar.min (Scalar.max a lower) upper

/-- The outgoing state of a scenario. -/
def outgoing (c : ClosedStage α) (raw : Point α) : Point α :=
  List.zipWith (fun a (l, u) => clamp a l u) raw (c.lower.zip c.upper)

/-- The derivative of each outgoing state in the incoming one: the gain where
the state is strictly within its limits. -/
def slopes (c : ClosedStage α) (s : ClosedScenario α) (raw : Point α) : List α :=
  List.zipWith (fun (a, g) (l, u) => if l < a ∧ a < u then g else 0) (raw.zip s.gain)
    (c.lower.zip c.upper)

/-- The value to come at an outgoing state and its slope: the bound, unless a
cut goes beyond it. -/
def future (s : Situation α) (out : Point α) : α × List α :=
  let nothing : α × List α := (0, out.map fun _ => 0)
  if s.setting.final then nothing
  else s.cuts.foldl
    (fun (theta, slope) cut =>
      let v := cut.eval out
      let beyond := match s.setting.sense with
        | .min => decide (theta < v)
        | .max => decide (v < theta)
      if beyond then (v, cut.coefficients) else (theta, slope))
    ((s.setting.bound.map Scalar.ofLimit).getD 0, nothing.2)

/-- Refuses a first state below the limit of a scenario. -/
def checkFirst (s : ClosedScenario α) (setting : Setting α) (x : Point α) : Except Failure Unit :=
  match s.failBelow, x with
  | none, _ => .ok ()
  | some _, [] => .error .outOfRange
  | some limit, first :: _ =>
    if first < limit then
      if s.solverFails then .error (.unsolved Failure.unsolvedText)
      else .error (.infeasible Failure.infeasibleText setting.stage setting.markovState)
    else .ok ()

/-- The name of an outgoing state among a solution's values. -/
def outName (k : Nat) : Value := s!"out{k}"

/-- The solution of a scenario at an incoming state. -/
def solution (c : ClosedStage α) (s : ClosedScenario α) (situation : Situation α) (x : Point α) :
    StageSolution α :=
  let own := (List.zipWith (· * ·) s.cost x).foldl (· + ·) s.constant
  let raw := rawState s x
  let out := c.outgoing raw
  let (theta, slope) := future situation out
  { objective := own + theta
    stageObjective := own
    duals := List.zipWith (· + ·) s.cost (List.zipWith (· * ·) slope (c.slopes s raw))
    state := out
    values := (out.mapIdx fun k a => (outName k, a)) ++ [(("theta" : Value), theta)] }

/-- Solves a closed stage. -/
def answer (c : ClosedStage α) (situation : Situation α) (x : Point α) (k : Int) :
    Except Failure (StageSolution α) :=
  match c.scenarios[k.toNat]? with
  | none => .error .outOfRange
  | some s => do
    checkFirst s situation.setting x
    return c.solution s situation x

/-- The stage problem of closed data; scenarios are equally likely unless it
says otherwise. -/
def problem (c : ClosedStage α) : StageProblem α where
  stateCount := c.stateCount
  probabilities :=
    let n := c.scenarios.length
    c.probabilities.getD (Tensor.vector (List.replicate n (1 / Scalar.ofNat n)))
  answer := c.answer

end ClosedStage

end Multistage
