/-
Multistage.Sense — minimization and maximization.
-/
import Multistage.Failure
import Multistage.Text.Blank
import Multistage.Text.Case

namespace Multistage

/-- Whether a model's objective is a cost to keep low or a profit to keep
high. -/
inductive Sense where
  | min
  | max
  deriving Repr, DecidableEq

namespace Sense

/-- The short name. -/
def name : Sense → String
  | min => "min"
  | max => "max"

/-- The names of minimization, in lower case. -/
def minNames : List String :=
  ["min", "minimize", "minimise", "minimization", "minimisation"]

/-- The names of maximization, in lower case. -/
def maxNames : List String :=
  ["max", "maximize", "maximise", "maximization", "maximisation"]

/-- Reads a name of a sense; case and blanks around it do not matter. -/
def parse (given : Value) : Except Failure Sense :=
  let key := Text.lower (Text.trim given.text)
  if key ∈ minNames then .ok min
  else if key ∈ maxNames then .ok max
  else .error (.misconfigured (.unknownSense given))

end Sense

end Multistage
