/-
Multistage.Training.Options — settings of a training run.

Options are kept as they were given.  Counts have to convert to whole numbers
in range, limits have to be positive numbers, and the cut selection has to
have a known name, which is put in its normal form.
-/
import Multistage.Cut.Dominance
import Multistage.Named

namespace Multistage

/-- Settings of a training run, each as it was given. -/
structure Options where
  maxIterations : Value := .int 50
  timeLimit : Value := .float Binary64.infinity
  backwardPasses : Value := .int 1
  forwardPasses : Value := .int 20
  convergenceFrequency : Value := .int 5
  cutSelectionFrequency : Value := .int 0
  cutSelection : Value := .string Selection.all.name
  tolerance : Value := .float 0.0
  seed : Value := .null
  timeout : Value := .null
  logLevel : Value := .null
  logFrequency : Value := .int 1

namespace Options

/-! ## Fields by name -/

/-- Other names of the fields. -/
def aliases : List (Value × Value) :=
  [("max_iters", "max_iterations"), ("iterations", "max_iterations"),
   ("time_limit_s", "time_limit"), ("cut_selection_method", "cut_selection"),
   ("rtol", "tolerance")]

/-- The field that a name stands for. -/
def canonical (key : Value) : Value :=
  ((aliases.find? fun (k, _) => k = key).map Prod.snd).getD key

/-- The fields with their names, in order. -/
def fields (o : Options) : List (String × Value) :=
  [("max_iterations", o.maxIterations), ("time_limit", o.timeLimit),
   ("backward_passes", o.backwardPasses), ("forward_passes", o.forwardPasses),
   ("convergence_frequency", o.convergenceFrequency),
   ("cut_selection_frequency", o.cutSelectionFrequency),
   ("cut_selection", o.cutSelection), ("tolerance", o.tolerance), ("seed", o.seed),
   ("timeout", o.timeout), ("log_level", o.logLevel), ("log_frequency", o.logFrequency)]

/-- The options with the field of a name replaced; none for an unknown
name. -/
def put? (o : Options) (name v : Value) : Option Options :=
  match name with
  | .string "max_iterations" => some { o with maxIterations := v }
  | .string "time_limit" => some { o with timeLimit := v }
  | .string "backward_passes" => some { o with backwardPasses := v }
  | .string "forward_passes" => some { o with forwardPasses := v }
  | .string "convergence_frequency" => some { o with convergenceFrequency := v }
  | .string "cut_selection_frequency" => some { o with cutSelectionFrequency := v }
  | .string "cut_selection" => some { o with cutSelection := v }
  | .string "tolerance" => some { o with tolerance := v }
  | .string "seed" => some { o with seed := v }
  | .string "timeout" => some { o with timeout := v }
  | .string "log_level" => some { o with logLevel := v }
  | .string "log_frequency" => some { o with logFrequency := v }
  | _ => none

/-! ## Checks -/

/-- Refuses a count below zero. -/
def checkNonNegative (name : String) (v : Value) : Except Failure Unit := do
  if (← v.toInt) < 0 then throw (.misconfigured (.negative name v))

/-- Refuses a count below one. -/
def checkAtLeastOne (name : String) (v : Value) : Except Failure Unit := do
  if (← v.toInt) < 1 then throw (.misconfigured (.belowOne name v))

/-- Refuses a limit that is not positive. -/
def checkPositive (name : String) (v : Value) : Except Failure Unit := do
  if ← v.isAtMost 0 then throw (.misconfigured (.notPositive name v))

/-- Checks all settings in turn and puts the name of the selection in its
normal form. -/
def validated (o : Options) : Except Failure Options := do
  checkNonNegative "max_iterations" o.maxIterations
  checkNonNegative "convergence_frequency" o.convergenceFrequency
  checkNonNegative "cut_selection_frequency" o.cutSelectionFrequency
  checkAtLeastOne "backward_passes" o.backwardPasses
  checkAtLeastOne "forward_passes" o.forwardPasses
  checkAtLeastOne "log_frequency" o.logFrequency
  checkPositive "time_limit" o.timeLimit
  match o.timeout with
  | .null => pure ()
  | v => checkPositive "timeout" v
  let selection ← Selection.parse o.cutSelection
  return { o with cutSelection := .string selection.name }

/-! ## Construction -/

/-- Options from named parameters; names may be aliases. -/
def ofParams (pairs : List (Value × Value)) : Except Failure Options := do
  let given ← (Named.ofPairs pairs).foldlM
    (fun (o : Options) (key, v) =>
      match o.put? (canonical key) v with
      | some o => .ok o
      | none => .error (.misconfigured (.unknownOption key)))
    {}
  given.validated

/-- Options from their own field names only. -/
def ofFields (pairs : List (Value × Value)) : Except Failure Options := do
  let given ← (Named.ofPairs pairs).foldlM
    (fun (o : Options) (key, v) =>
      match o.put? key v with
      | some o => .ok o
      | none => .error Failure.wrongKind)
    {}
  given.validated

end Options

end Multistage
