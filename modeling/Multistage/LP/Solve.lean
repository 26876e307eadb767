/-
Multistage.LP.Solve — solving a program with a given solver.

A solver takes a program with one-sided rows and answers with an optimum and
its marginals, or says why there is none.  `Program.solve` splits the rows,
calls the solver and puts the duals back into the order of the rows.
-/
import Multistage.LP.Split
import Multistage.LP.Result
import Multistage.Named
import Multistage.Value.Convert

namespace Multistage.LP

-- Powers are the plain ones, also where a library of algebra offers its own.
attribute [local instance (high)] instPowNat

variable {α : Type}

/-! ## Solvers -/

/-- How a solver is to work. -/
structure Settings where
  pivotLimit : Option Int := none
  presolve : Bool := true

/-- The settings among named parameters; others are ignored.  Presolving is
left out only where it is turned off by `false` itself. -/
def Settings.ofParams (params : Named Value) : Except Failure Settings := do
  let limit :=
    ((params.get? "max_iterations").orElse fun _ => params.get? "max_iters").getD .null
  let pivotLimit ← match limit with
    | .null => pure none
    | v => some <$> v.toInt
  return { pivotLimit, presolve := params.get? "presolve" != some (.bool false) }

/-- A limit on the steps has to be a whole number of 32 bits. -/
def Settings.checkLimit (settings : Settings) : Except Failure Unit :=
  if settings.pivotLimit.all fun n => decide (-(2 ^ (31 : Nat)) ≤ n ∧ n < 2 ^ (31 : Nat)) then
    .ok ()
  else .error .wrongKind

/-- An optimum with its marginals: the derivatives of the optimal value in the
right-hand sides and in the column limits. -/
structure Optimum (α : Type) where
  point : List α
  value : α
  equationMarginals : List α
  inequalityMarginals : List α
  lowerMarginals : List α
  upperMarginals : List α

/-- How a solver's run ends, and what an optimum is described by. -/
inductive Outcome (β : Type) where
  | optimal (optimum : β)
  | infeasible
  | unbounded
  | limited
  | failed

/-- The outcome with another description of the optimum. -/
def Outcome.map {β γ : Type} (f : β → γ) : Outcome β → Outcome γ
  | optimal o => optimal (f o)
  | infeasible => infeasible
  | unbounded => unbounded
  | limited => limited
  | failed => failed

/-- A solver of programs with one-sided rows.  It may refuse a program. -/
abbrev Solver (α : Type) := Settings → Split α → Except Failure (Outcome (Optimum α))

/-! ## Solving -/

/-- Optimal value, an optimal point, and one dual per row: the derivative of
the value in the limit of the row. -/
structure Solution (α : Type) where
  objective : α
  point : List α
  duals : List α

/-- A solution, or the status of a run that found none. -/
inductive Result (α : Type) where
  | optimal (solution : Solution α)
  | stopped (status : Status)

/-- The status of a result. -/
def Result.status : Result α → Status
  | optimal _ => .optimal
  | stopped s => s

variable [Scalar α]

/-- The result that a solver's outcome means for a program. -/
def Program.result (p : Program α) : Outcome (Optimum α) → Result α
  | .optimal o =>
    .optimal
      { objective := o.value
        point := o.point
        duals := p.recoverDuals o.equationMarginals o.inequalityMarginals }
  | .infeasible => .stopped .primalInfeasible
  | .unbounded => .stopped .dualInfeasible
  | .limited => .stopped .maxIterations
  | .failed => .stopped .numericalError

/-- Solves a program. -/
def Program.solve (solver : Solver α) (params : Named Value) (p : Program α) :
    Except Failure (Result α) := do
  let settings ← Settings.ofParams params
  return p.result (← solver settings p.split)

end Multistage.LP
