/-
Multistage.Cut.Store — the cuts and sample points of one stage.

A store keeps the cuts discovered for one (stage, Markov state) pair and the
states at which they were built, both in the order of arrival.  `append` is
the way of a single pass and keeps duplicates; `merge` joins the findings of
several workers as sets, sorted by value, so that the result does not depend
on who came first.  The votes of the last dominance count, or votes that a caller
puts in, stay with the store until a cut or a point is added.
-/
import Multistage.Cut.Basic
import Multistage.Value.Number

namespace Multistage

-- Powers are the plain ones, also where a library of algebra offers its own.
attribute [local instance (high)] instPowNat

/-- What one worker adds to a store: sample points and cuts. -/
structure Delta (α : Type) where
  points : List (Point α)
  cuts : List (Cut α)
  deriving Repr

/-- Votes for the cuts of a store: one whole number per cut, as a dominance
count has them, or an array that a caller put in their place. -/
inductive Votes where
  | counted (votes : List Int)
  | given (votes : Tensor Value)

/-- The cuts and sample points of one (stage, Markov state) pair.  `votes`
holds the votes of the last dominance count, none when stale. -/
structure Store (α : Type) where
  stateCount : Int
  cuts : List (Cut α)
  points : List (Point α)
  votes : Option Votes

namespace Store

variable {α : Type}

/-- A store without cuts and points. -/
def empty (stateCount : Int) : Store α := ⟨stateCount, [], [], none⟩

/-! ## Additions -/

/-- Refuses a cut of the wrong dimension. -/
def checkCut (s : Store α) (c : Cut α) : Except Failure Unit :=
  if (c.coefficients.length : Int) = s.stateCount then .ok ()
  else .error (.mismatched (.cutLength c.coefficients.length s.stateCount))

/-- Refuses a sample point of the wrong dimension. -/
def checkPoint (s : Store α) (p : Point α) : Except Failure Unit :=
  if (p.length : Int) = s.stateCount then .ok ()
  else .error (.mismatched (.pointLength p.length s.stateCount))

/-- Adds a sample point at the end. -/
def addPoint (p : Point α) : Transition (Store α) Unit := do
  Transition.outcome ((← get).checkPoint p)
  modify fun s => { s with points := s.points ++ [p], votes := none }

/-- Adds a cut at the end. -/
def addCut (c : Cut α) : Transition (Store α) Unit := do
  Transition.outcome ((← get).checkCut c)
  modify fun s => { s with cuts := s.cuts ++ [c], votes := none }

/-- Adds a cut and, when given, the state it was built at.  The cut is in the
store before the point is looked at. -/
def append (c : Cut α) (p : Option (Point α)) : Transition (Store α) Unit := do
  addCut c
  match p with
  | some p => addPoint p
  | none => return

/-- A store filled with cuts and then with points. -/
def ofLists (stateCount : Int) (cuts : List (Cut α)) (points : List (Point α)) :
    Except Failure (Store α) :=
  let fill : Transition (Store α) Unit := do
    cuts.forM addCut
    points.forM addPoint
  match fill.perform (empty stateCount) with
  | (.ok _, s) => .ok s
  | (.error e, _) => .error e

/-! ## Deltas -/

/-- The items from a position on; a negative position counts from the end,
and positions beyond either end are clipped. -/
def sliceFrom {β : Type} (i : Int) (xs : List β) : List β :=
  if 0 ≤ i then xs.drop i.toNat else xs.drop (xs.length + i).toNat

/-- What was added after the store had the given sizes. -/
def deltaSince (s : Store α) (cutCount pointCount : Int) : Delta α :=
  ⟨sliceFrom pointCount s.points, sliceFrom cutCount s.cuts⟩

/-- The items of a list that are not in `seen`, each once, the first of equal
ones. -/
def newItems {β : Type} [BEq β] (seen : List β) : List β → List β → List β
  | found, [] => found
  | found, x :: rest =>
    if seen.contains x || found.contains x then newItems seen found rest
    else newItems seen (found ++ [x]) rest

/-- Refuses deltas that hold a point or a cut of the wrong dimension. -/
def checkDeltas (s : Store α) (deltas : List (Delta α)) : Except Failure Unit :=
  deltas.forM fun d => do
    d.points.forM s.checkPoint
    d.cuts.forM s.checkCut

variable [Scalar α]

/-- The points of the deltas that the store does not have, sorted. -/
def newPoints (s : Store α) (deltas : List (Delta α)) : List (Point α) :=
  sortByKey id (newItems s.points [] (deltas.flatMap Delta.points))

/-- The cuts of the deltas that the store does not have, sorted. -/
def newCuts (s : Store α) (deltas : List (Delta α)) : List (Cut α) :=
  sortByKey Cut.sortKey (newItems s.cuts [] (deltas.flatMap Delta.cuts))

/-- Joins worker deltas into the store as sets; true when something was
added.  Nothing changes when a point or cut has the wrong dimension. -/
def merge (deltas : List (Delta α)) : Transition (Store α) Bool := do
  let s ← get
  Transition.outcome (s.checkDeltas deltas)
  let points := s.newPoints deltas
  let cuts := s.newCuts deltas
  let changed := !points.isEmpty || !cuts.isEmpty
  set { s with
    points := s.points ++ points
    cuts := s.cuts ++ cuts
    votes := if changed then none else s.votes }
  return changed

/-! ## Views -/

/-- The coefficients of the cuts, a row per cut.  A store without cuts has an
empty matrix, if doubles of its width fit into memory. -/
def coefficientRows (s : Store α) : Except Failure (List (List α)) :=
  if s.cuts.isEmpty ∧ ¬(0 ≤ s.stateCount ∧ 8 * s.stateCount < 2 ^ (63 : Nat)) then
    .error (.badValue "an array cannot have this many entries")
  else .ok (s.cuts.map Cut.coefficients)

/-- The cuts with a vote. -/
def winners (s : Store α) (votes : List Int) : List (Cut α) :=
  ((s.cuts.zip votes).filter fun (_, v) => decide (0 < v)).map Prod.fst

/-- Whether a part of a given array is a single number above zero. -/
def isVote (part : Tensor Value) : Except Failure Bool := do
  let above ← part.entries.mapM fun v => (Number.whole 0).isBelow <$> v.number
  match above with
  | [b] => return b
  | _ => throw (.badValue "the truth of several votes is ambiguous")

/-- The cuts that won a sample point in the last dominance count; all cuts
when there is no count or no point.  Given votes have to be numbers. -/
def undominated (s : Store α) : Except Failure (List (Cut α)) :=
  match s.votes, s.points with
  | some (.counted votes), _ :: _ => .ok (s.winners votes)
  | some (.given votes), _ :: _ => do
    if votes.rank = 0 then throw .wrongKind
    (s.cuts.zip votes.parts).filterMapM fun (c, part) => do
      return if ← isVote part then some c else none
  | _, _ => .ok s.cuts

/-- Stores are equal when dimension, cuts and points are, in order. -/
instance : BEq (Store α) :=
  ⟨fun a b => a.stateCount == b.stateCount && a.cuts == b.cuts && a.points == b.points⟩

/-- The one-line description of a store. -/
def describe (s : Store α) : String :=
  s!"StageCuts(n_states={s.stateCount}, n_cuts={s.cuts.length}, " ++
    s!"n_sample_points={s.points.length})"

end Store

end Multistage
