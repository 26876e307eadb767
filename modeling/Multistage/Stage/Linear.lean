/-
Multistage.Stage.Linear — stage problems that are linear programs.

A linear stage chooses decisions `y` and an approximation `theta` of the value
to come:

    minimize (or maximize)  c · y + theta
    subject to              B x + A y  (at most, at least, equal)  b
                            theta beyond every cut at the outgoing state
                            lower ≤ y ≤ upper

where `x` is the incoming state, the outgoing state consists of some of the
decisions, and `c` and `b` depend on the scenario.  `assemble` writes this as a
program in minimization form, with a copy of the incoming state among its
columns; the duals of the rows that fix the copy are the derivatives of the
value in the incoming state.
-/
import Multistage.LP.Solve
import Multistage.Stage.Problem
import Multistage.Tensor

namespace Multistage

/-- The data of a linear stage problem.  `costs` and `rhs` have one row per
scenario; `stateOut` says which decision is which outgoing state. -/
structure LinearStage (α : Type) where
  decisions : Nat
  costs : List (List α)
  rows : List (List α)
  inflow : List (List α)
  rhs : List (List α)
  signs : List Value
  stateOut : List Nat
  ranges : List (LP.Range α)
  names : List Value
  probabilities : Tensor α
  params : Named Value

namespace LinearStage

variable {α : Type}

/-! ## Construction -/

/-- An outcome that is looked at when its turn comes. -/
abbrev Reading (β : Type) := Except Failure β

/-- The parts of a linear stage problem as a caller states them.  Optional
parts have defaults: no influence of the incoming state, decisions from zero
upwards, equal probabilities, and names by number. -/
structure Statement (α : Type) where
  matrix : Reading (Tensor α)
  stateOut : Reading (List Int)
  costs : Reading (Tensor α)
  rhs : Reading (Tensor α)
  probabilities : Reading (Option (Tensor α)) := .ok none
  inflow : Reading (Option (Tensor α)) := .ok none
  signs : Reading (List Value)
  lower : Reading (Option (List (Limit α))) := .ok none
  upper : Reading (Option (List (Limit α))) := .ok none
  names : Reading (Option (List Value)) := .ok none
  params : Reading (Named Value) := .ok []

/-- Number of scenarios that a table of rows stands for; a single row stands
for any number of them. -/
def scenariosOf (t : Tensor α) : Nat :=
  match t.shape with
  | [n, _] => n
  | _ => 1

/-- One row per scenario out of a table, or of a single row that serves all
scenarios. -/
def scenarioRows (name : String) (width scenarios : Nat) (t : Tensor α) :
    Except Failure (List (List α)) :=
  let rows := match t.shape with
    | [n] => if n = width then some (List.replicate scenarios t.entries) else none
    | [n, w] => if n = scenarios ∧ w = width then some t.rows else none
    | _ => none
  match rows with
  | some rows => .ok rows
  | none => .error (.mismatched (.scenarioTable name width scenarios t.shape))

/-- The name of a decision that has none. -/
def defaultName (j : Nat) : Value := s!"y{j}"

variable [Scalar α]

/-- The influence of the incoming state on the rows. -/
def inflowRows (rows states : Nat) : Option (Tensor α) → Except Failure (List (List α))
  | none => .ok (List.replicate rows (List.replicate states 0))
  | some t =>
    let t := t.atLeast2
    if t.shape = [rows, states] then .ok t.rows
    else .error (.mismatched (.inflowShape rows states t.shape))

/-- The linear stage problem that a statement describes.  Parts are looked at
in a fixed order and checked one by one. -/
def ofStatement (s : Statement α) : Except Failure (LinearStage α) := do
  let matrix := (← s.matrix).atLeast2
  let (rows, decisions) ← match matrix.shape with
    | [m, n] => pure (m, n)
    | _ => throw (.badValue "too many dimensions")
  let stateOut ← s.stateOut
  let costs ← s.costs
  let rhs ← s.rhs
  let count := Nat.max (scenariosOf costs) (scenariosOf rhs)
  let probabilities :=
    (← s.probabilities).getD (Tensor.vector (List.replicate count (1 / Scalar.ofNat count)))
  let scenarios ← match probabilities.leading? with
    | some n => pure n
    | none => throw .wrongKind
  let costRows ← scenarioRows "c" decisions scenarios costs
  let rhsRows ← scenarioRows "b" rows scenarios rhs
  let inflow ← inflowRows rows stateOut.length (← s.inflow)
  let signs ← s.signs
  if signs.length ≠ rows then throw (.mismatched (.rowSenses rows signs.length))
  if stateOut.any fun k => decide (k < 0 ∨ (decisions : Int) ≤ k) then
    throw (.misconfigured (.stateIndexOutOfRange decisions))
  let lower := (← s.lower).getD (List.replicate decisions (.finite 0))
  let upper := (← s.upper).getD (List.replicate decisions .posInf)
  if ¬(lower.length = decisions ∧ upper.length = decisions) then
    throw (.mismatched (.decisionBounds decisions))
  let names := (← s.names).getD ((List.range decisions).map defaultName)
  if names.length ≠ decisions then throw (.mismatched (.variableNames decisions names.length))
  return {
    decisions, costs := costRows, rows := matrix.rows, inflow, rhs := rhsRows, signs
    stateOut := stateOut.map Int.toNat
    ranges := List.zipWith LP.Range.mk lower upper
    names, probabilities, params := ← s.params }

/-! ## The program -/

/-- Number of states. -/
def stateCount (p : LinearStage α) : Nat := p.stateOut.length

/-- A linear program in minimization form, with a sign and a right-hand side
per row.  Its columns are the copy of the incoming state, the decisions, and
`theta`. -/
structure Assembly (α : Type) where
  costs : List α
  rows : List (List α)
  rhs : List α
  signs : List Value
  columns : List (LP.Range α)

/-- A number turned so that less is better. -/
def towardsMin (sense : Sense) (a : α) : α :=
  match sense with
  | .min => a
  | .max => -a

/-- A row of zeros with single entries set; of several entries in one place
the last one stays. -/
def scatter (width : Nat) (places : List Nat) (entries : List α) : List α :=
  (places.zip entries).foldl (fun row (j, a) => row.set j a) (List.replicate width 0)

/-- The bound on `theta` that is used when a model has none. -/
def defaultBound (sense : Sense) : α :=
  match sense with
  | .min => -Scalar.ofNat 1000000
  | .max => Scalar.ofNat 1000000

/-- The range of `theta`: zero in the last stage, else beyond the bound on the
value to come. -/
def thetaRange (s : Setting α) : LP.Range α :=
  if s.final then ⟨.finite 0, .finite 0⟩
  else
    let bound := s.bound.getD (.finite (defaultBound s.sense))
    match s.sense with
    | .min => ⟨bound, .posInf⟩
    | .max => ⟨.negInf, bound⟩

/-- The rows that fix the copy of the incoming state. -/
def copyRows (p : LinearStage α) : List (List α) :=
  (List.range p.stateCount).map fun i =>
    scatter p.stateCount [i] [1] ++ List.replicate p.decisions 0 ++ [0]

/-- The rows of the stage itself. -/
def stageRows (p : LinearStage α) : List (List α) :=
  List.zipWith (fun inflow row => inflow ++ row ++ [0]) p.inflow p.rows

/-- The row of a cut: the cut's slope at the outgoing state less `theta`, or
the reverse, is at most a constant. -/
def cutRow (p : LinearStage α) (sense : Sense) (c : Cut α) : List α :=
  List.replicate p.stateCount 0 ++
    scatter p.decisions p.stateOut (c.coefficients.map (towardsMin sense)) ++
    [-towardsMin sense 1]

/-- The cuts that count: none in the last stage. -/
def activeCuts (s : Setting α) (cuts : List (Cut α)) : List (Cut α) :=
  if s.final then [] else cuts

/-- The program of the stage at an incoming state, for the costs and the
right-hand side of one scenario. -/
def assembly (p : LinearStage α) (s : Setting α) (cuts : List (Cut α)) (x : Point α)
    (costs rhs : List α) : Assembly α :=
  let cuts := activeCuts s cuts
  { costs := List.replicate p.stateCount 0 ++ costs.map (towardsMin s.sense) ++
      [towardsMin s.sense 1]
    rows := p.copyRows ++ p.stageRows ++ cuts.map (p.cutRow s.sense)
    rhs := x ++ rhs ++ cuts.map fun c => -towardsMin s.sense c.intercept
    signs := List.replicate p.stateCount LP.RowSense.equal.sign ++ p.signs ++
      cuts.map fun _ => LP.RowSense.atMost.sign
    columns := List.replicate p.stateCount ⟨.negInf, .posInf⟩ ++ p.ranges ++ [thetaRange s] }

/-- Costs and right-hand side of a scenario. -/
def scenario (p : LinearStage α) (scenarios : Nat) (k : Int) :
    Except Failure (List α × List α) :=
  match k with
  | .ofNat n =>
    if n < scenarios then
      match p.costs[n]?, p.rhs[n]? with
      | some c, some b => .ok (c, b)
      | _, _ => .error .outOfRange
    else .error (.misconfigured (.scenarioOutOfRange (.int k) scenarios))
  | .negSucc _ => .error (.misconfigured (.scenarioOutOfRange (.int k) scenarios))

/-- The program of the stage in a situation, at an incoming state, for a
scenario. -/
def assemble (p : LinearStage α) (s : Situation α) (x : Point α) (k : Int) :
    Except Failure (Assembly α) := do
  StageProblem.checkState p.stateCount x
  let (costs, rhs) ← p.scenario s.scenarios k
  return p.assembly s.setting s.cuts x costs rhs

/-- The linear program of an assembly. -/
def Assembly.program (a : Assembly α) : Except Failure (LP.Program α) :=
  LP.Program.ofSigned a.costs a.rows a.signs a.rhs a.columns

/-! ## Solutions -/

/-- The name of the approximated value to come among a solution's values. -/
def thetaName : Value := "theta"

/-- The words for a stage, Markov state and scenario. -/
def place (s : Setting α) (k : Int) : String :=
  "stage " ++ s.stage.text ++ " markov state " ++ s.markovState.text ++ s!" scenario {k}"

/-- The solution of the stage that a solution of its program means. -/
def stageSolution (p : LinearStage α) (sense : Sense) (costs : List α) (r : LP.Solution α) :
    StageSolution α :=
  let y := (r.point.drop p.stateCount).take p.decisions
  let theta := r.point.getLastD 0
  { objective := towardsMin sense r.objective
    stageObjective := Scalar.dot costs y
    duals := (r.duals.take p.stateCount).map (towardsMin sense)
    state := p.stateOut.map fun j => y.getD j 0
    values := (Named.ofPairs (p.names.zip y)).put thetaName theta }

/-- Solves the stage with a solver of linear programs. -/
def answer (p : LinearStage α) (solver : LP.Solver α) (s : Situation α) (x : Point α)
    (k : Int) : Except Failure (StageSolution α) := do
  let a ← p.assemble s x k
  match ← (← a.program).solve solver s.params with
  | .optimal r =>
    p.names.forM Named.checkName
    return p.stageSolution s.setting.sense ((p.costs[k.toNat]?).getD []) r
  | .stopped .primalInfeasible =>
    throw (.infeasible (place s.setting k ++ " is infeasible") s.setting.stage
      s.setting.markovState)
  | .stopped status =>
    throw (.unsolved (place s.setting k ++ ": solver returned " ++ status.name))

/-- The stage problem of linear data. -/
def problem (p : LinearStage α) (solver : LP.Solver α) : StageProblem α where
  stateCount := p.stateCount
  probabilities := p.probabilities
  answer := p.answer solver
  params := some p.params

end LinearStage

end Multistage
