/-
Multistage.Round.Schedule — waiting for the tasks of a round.

A round hands every worker its own copy of the arguments, so what a task
returns is fixed before any of them starts; only the order in which they
finish is open, and whether a timer ends the wait.  A schedule is such an
order.  The answer is read off worker by worker, not in the order of
completion.
-/
import Multistage.Round.Pool
import Multistage.Value.Number

namespace Multistage

/-- Something that happens while a round waits: a worker completes its task,
or the timer fires. -/
inductive Event where
  | completes (worker : Nat)
  | timer
  deriving Repr, DecidableEq

/-- The events of a round in the order in which they happen. -/
abbrev Schedule := List Event

namespace Schedule

/-- The workers complete one after another. -/
def inOrder (workers : Nat) : Schedule := (List.range workers).map Event.completes

/-- The workers that have completed when the wait ends: at the timer, or
after the last event. -/
def finished : Schedule → List Nat
  | [] => []
  | .timer :: _ => []
  | .completes k :: rest => k :: finished rest

/-- The workers, out of so many, that have not completed when the wait
ends. -/
def pending (s : Schedule) (workers : Nat) : List Nat :=
  (List.range workers).filter fun k => !s.finished.contains k

end Schedule

/-- The message of a round that ran out of time. -/
def overdueRoundText (pending workers : Nat) (timeout : Value) : String :=
  s!"{pending} of {workers} workers did not finish within " ++ timeout.text ++ " s"

/-- The longest time, in seconds, that can be waited. -/
def longestWait : Int := 9223372036

/-- Refuses a limit that cannot be waited for: it is a number of seconds, and
not too large a one.  There may be none. -/
def checkLimit (timeout : Value) : Except Failure Unit := do
  match timeout with
  | .null => return
  | limit => if (Number.whole longestWait).isBelow (← limit.number) then throw .tooLarge

/-- The end of a wait that leaves tasks unfinished.  A limit that cannot be
waited for ends the wait as it begins. -/
def abandon {β : Type} (pending workers : Nat) (timeout : Value) : Except Failure β := do
  checkLimit timeout
  throw (.overdue (overdueRoundText pending workers timeout) (.int pending))

/-- Collects the outcomes of the tasks, one per worker.  An unfinished task
outweighs any failure; otherwise the failure of the lowest-numbered worker
stands for the round. -/
def gather {β : Type} (schedule : Schedule) (timeout : Value)
    (outcomes : List (Except Failure β)) : Except Failure (List β) :=
  let pending := (schedule.pending outcomes.length).length
  if 0 < pending then abandon pending outcomes.length timeout else outcomes.mapM id

/-- Runs a task for every worker of a pool on its arguments.  There has to be
one tuple of arguments per worker. -/
def Pool.distribute {ι β : Type} (p : Pool) (task : ι → Except Failure β) (arguments : List ι)
    (schedule : Schedule) (timeout : Value) : Except Failure (List β) := do
  p.checkListable
  if arguments.length ≠ p.size then
    throw (.misconfigured (.argumentCount arguments.length p.size))
  gather schedule timeout (arguments.map task)

end Multistage
