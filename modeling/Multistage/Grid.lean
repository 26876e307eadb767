/-
Multistage.Grid — values by stage and Markov state.

A grid has one row per stage and one entry per Markov state of the stage.
-/
import Multistage.Failure

namespace Multistage

/-- Values by stage and Markov state. -/
abbrev Grid (β : Type) := List (List β)

namespace Grid

variable {β : Type}

/-- The grid of a function of stage and Markov state. -/
def ofFn (stages states : Nat) (f : Nat → Nat → β) : Grid β :=
  (List.range stages).map fun t => (List.range states).map (f t)

/-- The grid of a function that may fail; stages come first. -/
def ofFnM (stages states : Nat) (f : Nat → Nat → Except Failure β) : Except Failure (Grid β) :=
  (List.range stages).mapM fun t => (List.range states).mapM (f t)

/-- The entry of a stage and Markov state. -/
def get? (g : Grid β) (t i : Nat) : Option β := g[t]?.bind fun row => row[i]?

/-- The entry of a stage and Markov state, which have to be in range. -/
def entry (g : Grid β) (t i : Nat) : Except Failure β :=
  match g.get? t i with
  | some b => .ok b
  | none => .error .outOfRange

/-- The grid with one entry replaced. -/
def put (g : Grid β) (t i : Nat) (b : β) : Grid β := g.modify t fun row => row.set i b

/-- Whether a grid has the given numbers of stages and Markov states. -/
def fits (g : Grid β) (stages states : Nat) : Bool :=
  g.length == stages && g.all fun row => row.length == states

/-- All pairs of stage and Markov state, stages first. -/
def pairs (stages states : Nat) : List (Nat × Nat) :=
  (List.range stages).flatMap fun t => (List.range states).map fun i => (t, i)

/-- The position that an index means when negative indices count from the
end. -/
def position? (size : Nat) (i : Int) : Option Nat :=
  let k := if i < 0 then size + i else i
  if 0 ≤ k ∧ k < size then some k.toNat else none

end Grid

end Multistage
