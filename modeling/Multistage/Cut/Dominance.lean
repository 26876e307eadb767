/-
Multistage.Cut.Dominance — which cut is best at each sample point.

At a sample point the best cut is the highest one when costs are minimized
and the lowest one when profits are maximized; the earliest of equals wins,
and a value that is not a number beats every number.  A cut's votes are the
points it wins.
-/
import Multistage.Cut.Store
import Multistage.Sense

namespace Multistage

variable {α : Type} [Scalar α]

/-- Whether a value takes the lead from an earlier one. -/
def takesLead (sense : Sense) (value leading : α) : Bool :=
  if Scalar.isNaN leading then false
  else if Scalar.isNaN value then true
  else match sense with
    | .min => decide (leading < value)
    | .max => decide (value < leading)

/-- The position of the best value among those to come and a leading one. -/
def leaderFrom (sense : Sense) : List α → Nat → Nat → α → Nat
  | [], _, best, _ => best
  | v :: rest, i, best, leading =>
    if takesLead sense v leading then leaderFrom sense rest (i + 1) i v
    else leaderFrom sense rest (i + 1) best leading

/-- The position of the best value. -/
def leader? (sense : Sense) : List α → Option Nat
  | [] => none
  | v :: rest => some (leaderFrom sense rest 1 0 v)

namespace Store

/-- The position of the best cut at a sample point. -/
def bestAt (sense : Sense) (s : Store α) (p : Point α) : Option Nat :=
  leader? sense (s.cuts.map fun c => c.eval p)

/-- The votes per cut: the sample points at which it is the best one. -/
def countVotes (sense : Sense) (s : Store α) : List Int :=
  let winners := s.points.map (s.bestAt sense)
  (List.range s.cuts.length).map fun k => (winners.count (some k) : Int)

/-- Counts the votes anew and keeps them with the store. -/
def recount (sense : Sense) (s : Store α) : Store α :=
  { s with votes := some (.counted (s.countVotes sense)) }

end Store

/-! ## Selection -/

/-- Which cuts a stage problem is loaded with. -/
inductive Selection where
  | all
  | levelOne
  deriving Repr, DecidableEq

namespace Selection

/-- The name of a selection. -/
def name : Selection → String
  | all => "none"
  | levelOne => "level_one"

/-- The one-line description of a selection. -/
def describe : Selection → String
  | all => "NoSelection()"
  | levelOne => "LevelOne()"

/-- Whether the choice rests on a dominance count. -/
def needsVotes : Selection → Bool
  | all => false
  | levelOne => true

/-- The cuts of a store that are loaded. -/
def select (m : Selection) (s : Store α) : Except Failure (List (Cut α)) :=
  match m with
  | all => .ok s.cuts
  | levelOne => s.undominated

/-- Reads the name of a selection; case, blanks around it and the choice
between dash and underscore do not matter, and a missing name means all
cuts. -/
def parse (given : Value) : Except Failure Selection :=
  match given with
  | .null => .ok all
  | _ =>
    let key := (Text.lower (Text.trim given.text)).map fun c => if c = '-' then '_' else c
    if key = all.name then .ok all
    else if key = levelOne.name then .ok levelOne
    else .error (.misconfigured (.unknownSelection given))

end Selection

end Multistage
