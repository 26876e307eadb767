/-
Multistage.LP.Simplex — the simplex method in exact arithmetic.

All variables, those of the columns and those of the rows, have a lower and an
upper limit or none.  A dictionary expresses some of them, the basic ones,
through the others, which stand at a limit or at zero.  A step first mends a
basic variable outside its limits; when there is none it improves the
objective.  Of several candidates the one with the lowest number is taken, so
that no dictionary comes twice.  A wide program starts with steps towards the
greatest change, which are fewer but may go round in circles.

The numbers of a program are rounded, and rows that hold in exact terms may
miss by the rounding.  A limit that cannot be met but is missed by no more
than `feasibilityTolerance` is therefore moved to where the variable stands,
and a reduced cost within `costTolerance` of zero does not count as a way to
improve.

The exact dictionary only decides which columns and rows are at their limits.
The numbers of an optimum are computed from there in doubles.
-/
import Multistage.LP.Elimination
import Multistage.LP.Presolve
import Multistage.LP.Unconstrained

namespace Multistage.LP.Simplex

-- Powers are the plain ones, also where a library of algebra offers its own.
attribute [local instance (high)] instPowNat

/-! ## Dictionaries -/

/-- The limits of a variable. -/
structure Limits where
  lower : Option Rat
  upper : Option Rat

/-- A variable outside the basis and its value. -/
structure Outsider where
  number : Nat
  value : Rat

/-- A basic variable as a combination of the variables outside. -/
structure Line where
  number : Nat
  coefficients : List Rat

/-- Basic variables and the objective, expressed through the variables
outside the basis. -/
structure Dictionary where
  limits : Array Limits
  outsiders : List Outsider
  lines : List Line
  costs : List Rat

/-- Rows may miss a limit by this much. -/
def feasibilityTolerance : Rat := mkRat 1 10000000

/-- Reduced costs this close to zero count as zero. -/
def costTolerance : Rat := mkRat 1 10000000

/-- The sum of the products of corresponding entries. -/
def dot (as bs : List Rat) : Rat := (List.zipWith (· * ·) as bs).foldl (· + ·) 0

namespace Dictionary

/-- The limits of a variable. -/
def limitsOf (d : Dictionary) (v : Nat) : Limits := d.limits.getD v ⟨none, none⟩

/-- The value of a line. -/
def lineValue (d : Dictionary) (l : Line) : Rat :=
  dot l.coefficients (d.outsiders.map Outsider.value)

/-- The value of a variable. -/
def value (d : Dictionary) (v : Nat) : Rat :=
  match d.outsiders.find? fun o => o.number == v with
  | some o => o.value
  | none => ((d.lines.find? fun l => l.number == v).map d.lineValue).getD 0

/-- The reduced cost of a variable; basic variables have none. -/
def reducedCost (d : Dictionary) (v : Nat) : Rat :=
  (((d.outsiders.zip d.costs).find? fun (o, _) => o.number == v).map Prod.snd).getD 0

/-- Whether a variable outside can grow. -/
def canGrow (d : Dictionary) (o : Outsider) : Bool :=
  match (d.limitsOf o.number).upper with
  | some u => decide (o.value < u)
  | none => true

/-- Whether a variable outside can shrink. -/
def canShrink (d : Dictionary) (o : Outsider) : Bool :=
  match (d.limitsOf o.number).lower with
  | some l => decide (l < o.value)
  | none => true

/-! ## Pivots -/

/-- A combination solved for the variable at position `j`; that position now
holds the variable the combination stood for. -/
def solveFor (j : Nat) (coefficients : List Rat) : List Rat :=
  let a := coefficients.getD j 0
  coefficients.mapIdx fun k b => if k = j then 1 / a else -(b / a)

/-- A combination with a further one put in for the variable at position
`j`. -/
def substitute (j : Nat) (entering coefficients : List Rat) : List Rat :=
  let a := coefficients.getD j 0
  if a = 0 then coefficients
  else (List.zipWith (fun b e => (b, e)) coefficients entering).mapIdx fun k (b, e) =>
    if k = j then a * e else b + a * e

/-- Exchanges the basic variable of line `r`, which is left at a given value,
and the variable outside at position `j`. -/
def pivot (d : Dictionary) (r j : Nat) (leaving : Rat) : Dictionary :=
  match d.lines[r]?, d.outsiders[j]? with
  | some line, some o =>
    let entering := solveFor j line.coefficients
    { d with
      outsiders := d.outsiders.set j ⟨line.number, leaving⟩
      lines := d.lines.mapIdx fun k l =>
        if k = r then ⟨o.number, entering⟩
        else { l with coefficients := substitute j entering l.coefficients }
      costs := substitute j entering d.costs }
  | _, _ => d

/-! ## Choices -/

/-- Which of several candidates is taken. -/
inductive Choice where
  | lowestNumber
  | greatestSize

/-- The item with the lowest number, if there is one. -/
def lowest? {β : Type} (number : β → Nat) : List β → Option β
  | [] => none
  | b :: rest =>
    match lowest? number rest with
    | some c => if number c < number b then some c else some b
    | none => some b

/-- The item of the greatest size, if there is one; of several the first. -/
def greatest? {β : Type} (size : β → Rat) : List β → Option β
  | [] => none
  | b :: rest =>
    match greatest? size rest with
    | some c => if size b < size c then some c else some b
    | none => some b

/-- The candidate that a choice takes. -/
def Choice.pick? {β : Type} (choice : Choice) (number : β → Nat) (size : β → Rat)
    (candidates : List β) : Option β :=
  match choice with
  | .lowestNumber => lowest? number candidates
  | .greatestSize => greatest? size candidates

/-- A basic variable that is outside its limits: its line, its value, the
limit that it misses, and whether that is the lower one. -/
structure Miss where
  line : Nat
  owner : Line
  value : Rat
  limit : Rat
  below : Bool

/-- By how much the limit is missed. -/
def Miss.gap (m : Miss) : Rat := if m.below then m.limit - m.value else m.value - m.limit

/-- The limit that a line misses, if any. -/
def miss? (d : Dictionary) (r : Nat) (l : Line) : Option Miss :=
  let v := d.lineValue l
  let limits := d.limitsOf l.number
  match limits.lower, limits.upper with
  | some b, some u =>
    if v < b then some ⟨r, l, v, b, true⟩ else if u < v then some ⟨r, l, v, u, false⟩ else none
  | some b, none => if v < b then some ⟨r, l, v, b, true⟩ else none
  | none, some u => if u < v then some ⟨r, l, v, u, false⟩ else none
  | none, none => none

/-- The limits that are missed. -/
def misses (d : Dictionary) : List Miss :=
  (d.lines.mapIdx fun r l => d.miss? r l).filterMap id

/-- The missed limit to be mended first. -/
def firstMiss? (d : Dictionary) (choice : Choice) : Option Miss :=
  choice.pick? (fun m => m.owner.number) Miss.gap d.misses

/-- A variable outside whose change moves a combination up: its position and
its coefficient. -/
structure Riser where
  position : Nat
  owner : Outsider
  coefficient : Rat

/-- The variables outside with which a combination can be moved up. -/
def risers (d : Dictionary) (coefficients : List Rat) (tolerance : Rat) : List Riser :=
  (d.outsiders.zip coefficients).mapIdx (fun j (o, a) => Riser.mk j o a) |>.filter fun r =>
    (tolerance < r.coefficient && d.canGrow r.owner) ||
      (r.coefficient < -tolerance && d.canShrink r.owner)

/-- The variable outside with which a combination is moved up. -/
def riser? (d : Dictionary) (choice : Choice) (coefficients : List Rat) (tolerance : Rat) :
    Option Riser :=
  choice.pick? (fun r => r.owner.number) (fun r => r.coefficient.abs)
    (d.risers coefficients tolerance)

/-! ## Steps -/

/-- How a run ends. -/
inductive Verdict where
  | optimal
  | infeasible
  | unbounded

/-- Moves the missed limit to where the variable stands. -/
def relax (d : Dictionary) (m : Miss) : Dictionary :=
  let limits := d.limitsOf m.owner.number
  let moved : Limits :=
    if m.below then { limits with lower := some m.value } else { limits with upper := some m.value }
  { d with limits := d.limits.setIfInBounds m.owner.number moved }

/-- Mends a missed limit. -/
def mend (d : Dictionary) (choice : Choice) (m : Miss) : Except Verdict Dictionary :=
  let upward := if m.below then m.owner.coefficients else m.owner.coefficients.map (- ·)
  match d.riser? choice upward 0 with
  | some r => .ok (d.pivot m.line r.position m.limit)
  | none => if m.gap ≤ feasibilityTolerance then .ok (d.relax m) else .error .infeasible

/-- Where a variable that moves is stopped: by the limit of a line, or by its
own. -/
structure Stop where
  distance : Rat
  number : Nat
  line : Option Nat
  limit : Rat

/-- Where a line at a value stops the variable at position `j`, which moves up
or down. -/
def lineStop? (d : Dictionary) (j : Nat) (up : Bool) (r : Nat) (l : Line) (v : Rat) :
    Option Stop :=
  let a := l.coefficients.getD j 0
  let rate := if up then a else -a
  let limits := d.limitsOf l.number
  if 0 < rate then limits.upper.map fun u => ⟨(u - v) / rate, l.number, some r, u⟩
  else if rate < 0 then limits.lower.map fun b => ⟨(v - b) / (-rate), l.number, some r, b⟩
  else none

/-- Where a variable is stopped by its own limit. -/
def ownStop? (d : Dictionary) (o : Outsider) (up : Bool) : Option Stop :=
  let limits := d.limitsOf o.number
  if up then limits.upper.map fun u => ⟨u - o.value, o.number, none, u⟩
  else limits.lower.map fun b => ⟨o.value - b, o.number, none, b⟩

/-- The nearest stop; of several the one with the lowest variable. -/
def nearest? : List Stop → Option Stop
  | [] => none
  | s :: rest =>
    match nearest? rest with
    | some t =>
      if t.distance < s.distance ∨ (t.distance = s.distance ∧ t.number < s.number) then some t
      else some s
    | none => some s

/-- Where a variable that moves is stopped, given the values of the lines. -/
def stop? (d : Dictionary) (values : List Rat) (r : Riser) : Option Stop :=
  let up := decide (0 < r.coefficient)
  let lineStops := (d.lines.zip values).mapIdx fun k (l, v) => d.lineStop? r.position up k l v
  nearest? ((d.ownStop? r.owner up).toList ++ lineStops.filterMap id)

/-- A variable outside that moves, and where it is stopped, if at all. -/
structure Move where
  riser : Riser
  stop : Option Stop

/-- By how much a move improves the objective; without a stop there is no
telling. -/
def Move.gain? (m : Move) : Option Rat := m.stop.map fun s => s.distance * m.riser.coefficient.abs

/-- The move that a choice takes: that of the lowest variable, or the one with
the greatest improvement. -/
def move? (d : Dictionary) (choice : Choice) (risers : List Riser) : Option Move :=
  let values := d.lines.map d.lineValue
  match choice with
  | .lowestNumber => (lowest? (fun r => r.owner.number) risers).map fun r => ⟨r, d.stop? values r⟩
  | .greatestSize =>
    let moves := risers.map fun r => Move.mk r (d.stop? values r)
    (moves.find? fun m => m.stop.isNone).orElse fun _ => greatest? (fun m => m.gain?.getD 0) moves

/-- Improves the objective of a dictionary whose variables are all within
their limits. -/
def improve (d : Dictionary) (choice : Choice) : Except Verdict Dictionary :=
  match d.move? choice (d.risers (d.costs.map (- ·)) costTolerance) with
  | none => .error .optimal
  | some ⟨_, none⟩ => .error .unbounded
  | some ⟨r, some ⟨_, _, some line, limit⟩⟩ => .ok (d.pivot line r.position limit)
  | some ⟨r, some ⟨_, _, none, limit⟩⟩ =>
    .ok { d with outsiders := d.outsiders.set r.position { r.owner with value := limit } }

/-- One step: mend a missed limit, or improve the objective. -/
def step (d : Dictionary) (choice : Choice) : Except Verdict Dictionary :=
  match d.firstMiss? choice with
  | some m => d.mend choice m
  | none => d.improve choice

/-- Whether no limit is missed, and nothing can be gained, by more than the
tolerances. -/
def isFinal (d : Dictionary) : Bool :=
  d.misses.all (fun m => decide (m.gap ≤ feasibilityTolerance)) &&
    (d.risers (d.costs.map (- ·)) costTolerance).isEmpty

/-- Steps until a verdict, or until the number of steps is used up.  Coming to
a verdict is a step too. -/
def run (choice : Choice) : Nat → Dictionary → Dictionary × Option Verdict
  | 0, d => (d, none)
  | n + 1, d =>
    match d.step choice with
    | .error v => (d, some v)
    | .ok d => run choice n d

end Dictionary

/-! ## Programs -/

/-- Where a variable outside stands at first: at the limit nearer to zero, and
at zero without limits. -/
def startValue (l : Limits) : Rat :=
  match l.lower, l.upper with
  | some b, some u => if b.abs < u.abs then b else u
  | some b, none => b
  | none, some u => u
  | none, none => 0

/-- The first dictionary of a program: the columns are outside, then come the
equations and the inequalities as basic variables. -/
def start (s : Split Rat) : Dictionary :=
  let columns := s.columns.map fun (l, u) => Limits.mk l u
  let equations := s.equations.map fun c => Limits.mk (some c.rhs) (some c.rhs)
  let inequalities := s.inequalities.map fun c => Limits.mk none (Presolve.upperLimit? c.rhs)
  { limits := (columns ++ equations ++ inequalities).toArray
    outsiders := columns.mapIdx fun k l => ⟨k, startValue l⟩
    lines := (s.equations ++ s.inequalities).mapIdx fun k c => ⟨columns.length + k, c.row⟩
    costs := s.costs }

/-- More steps than there are dictionaries. -/
def stepBound (s : Split Rat) : Nat :=
  4 ^ (s.columns.length + s.equations.length + s.inequalities.length)

/-- How many steps go towards the greatest change before the lowest number
decides: none in a narrow program. -/
def quickSteps (s : Split Rat) : Nat :=
  let rows := s.equations.length + s.inequalities.length
  if s.columns.length < 12 then 0 else 20 * (s.columns.length + rows)

/-- The first steps of the run on a program, as many as are allowed: towards the
greatest change at first, then by the lowest number. -/
def runFor (allowed : Nat) (s : Split Rat) : Dictionary × Option Dictionary.Verdict :=
  let quick := min allowed (quickSteps s)
  match (start s).run .greatestSize quick with
  | (d, none) => d.run .lowestNumber (allowed - quick)
  | (d, some v) => (d, some v)

/-- The run on a program with at most the given number of steps, when there is
a limit.  A start that is optimal as it stands needs none. -/
def runOn (stepLimit : Option Nat) (s : Split Rat) : Dictionary × Option Dictionary.Verdict :=
  match stepLimit with
  | none => runFor (stepBound s) s
  | some n => if (start s).isFinal then (start s, some .optimal) else runFor n s

/-- Solves a program in exact arithmetic.  The final dictionary describes the
optimum. -/
def solve (stepLimit : Option Nat) (s : Split Rat) : Outcome Dictionary :=
  match runOn stepLimit s with
  | (d, some .optimal) => .optimal d
  | (_, some .infeasible) => .infeasible
  | (_, some .unbounded) => .unbounded
  | (_, none) => .limited

/-- The optimum that a final dictionary describes. -/
def readOptimum (s : Split Rat) (d : Dictionary) : Optimum Rat :=
  let columns := s.columns.length
  let costsFrom (first count : Nat) : List Rat :=
    (List.range count).map fun k => d.reducedCost (first + k)
  let point := (List.range columns).map d.value
  let columnCosts := costsFrom 0 columns
  { point
    value := dot s.costs point
    equationMarginals := costsFrom columns s.equations.length
    inequalityMarginals := costsFrom (columns + s.equations.length) s.inequalities.length
    lowerMarginals := columnCosts.map fun c => if 0 < c then c else 0
    upperMarginals := columnCosts.map fun c => if c < 0 then c else 0 }

/-! ## Doubles -/

/-- The exact value of a finite double. -/
def rational? (x : Float) : Option Rat :=
  (Binary64.toFraction? x).map fun (num, den) => mkRat num den

/-- The double nearest to a rational. -/
def rounded (q : Rat) : Float := Binary64.nearest q.num q.den

/-- A row with finite entries, in exact terms. -/
def rationalConstraint? (c : Constraint Float) : Option (Constraint Rat) := do
  return ⟨← c.row.mapM rational?, ← rational? c.rhs⟩

/-- A program with finite costs and rows, in exact terms. -/
def rationalSplit? (s : Split Float) : Option (Split Rat) := do
  return {
    costs := ← s.costs.mapM rational?
    equations := ← s.equations.mapM rationalConstraint?
    inequalities := ← s.inequalities.mapM rationalConstraint?
    columns := s.columns.map fun (l, u) => (l.bind rational?, u.bind rational?) }

/-- Whether a variable stands outside the basis. -/
def isOutside (d : Dictionary) (v : Nat) : Bool := d.outsiders.any fun o => o.number == v

/-- The rows that hold with equality at a dictionary. -/
def tightRows (s : Split Float) (d : Dictionary) : List (Constraint Float) :=
  let numbered := (s.equations ++ s.inequalities).mapIdx fun k c => (s.columns.length + k, c)
  numbered.filterMap fun (v, c) => if isOutside d v then some c else none

/-- A point that a dictionary describes, computed in doubles.  Columns outside
the basis stay where they are, and the tight rows determine the others, which
are taken in the given order. -/
def settle (s : Split Float) (d : Dictionary) (inOrder : List Nat → List Nat)
    (point : List Float) : List Float :=
  let outside := (point.mapIdx fun j x => (j, x)).filter fun (j, _) => isOutside d j
  let system : System Float := (tightRows s d).map fun c => c.putAll outside
  let basic := (List.range s.columns.length).filter fun j => !isOutside d j
  let found := system.solve (inOrder basic)
  point.mapIdx fun j x => ((found.find? fun (k, _) => k == j).map Prod.snd).getD x

/-- The optimum that a final dictionary describes, in doubles. -/
def roundOptimum (s : Split Float) (inOrder : List Nat → List Nat) (d : Dictionary)
    (o : Optimum Rat) : Optimum Float :=
  let point := settle s d inOrder (o.point.map rounded)
  { point
    value := Scalar.total (List.zipWith (· * ·) s.costs point)
    equationMarginals := o.equationMarginals.map rounded
    inequalityMarginals := o.inequalityMarginals.map rounded
    lowerMarginals := o.lowerMarginals.map rounded
    upperMarginals := o.upperMarginals.map rounded }

/-- The number of steps that settings allow.  A program that presolving
solves takes none worth counting. -/
def stepLimit? (settings : Settings) (s : Split Rat) : Option Nat :=
  if settings.pivotLimit.isSome ∧ settings.presolve ∧ Presolve.vanishes s then none
  else match settings.pivotLimit with
    | some (.ofNat n) => some n
    | _ => none

/-- The order in which columns are settled: their own if the program is
presolved, else the reverse. -/
def settlingOrder (settings : Settings) (columns : List Nat) : List Nat :=
  if settings.presolve then columns else columns.reverse

/-- Solves a program over doubles: it is solved in exact terms, and the numbers
of the optimum are computed in doubles. -/
def solveRounded (settings : Settings) (s : Split Float) : Outcome (Optimum Float) :=
  if Unconstrained.applies s then Unconstrained.solve s
  else match rationalSplit? s with
    | none => .failed
    | some exact =>
      let exact := if settings.presolve then Presolve.settleLone exact else exact
      (solve (stepLimit? settings exact) exact).map fun d =>
        roundOptimum s (settlingOrder settings) d (readOptimum exact d)

/-- The solver of programs over doubles. -/
def solver : Solver Float := Screening.screen solveRounded

end Multistage.LP.Simplex
