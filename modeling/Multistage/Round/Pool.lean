/-
Multistage.Round.Pool — sets of workers.

A pool is a number of workers and how their tasks are run: one after another
in the caller's thread, or side by side.  The kind does not change what the
tasks compute.
-/
import Multistage.Value.Convert
import Multistage.Text.Case

namespace Multistage

-- Powers are the plain ones, also where a library of algebra offers its own.
attribute [local instance (high)] instPowNat

/-- How the tasks of a pool are run. -/
inductive PoolKind where
  | serial
  | thread
  | process
  deriving Repr, DecidableEq

/-- A set of workers, numbered from zero. -/
structure Pool where
  kind : PoolKind
  size : Nat
  deriving Repr, DecidableEq

namespace Pool

/-- A number of workers, at least one. -/
def readSize (workers : Value) : Except Failure Unit := do
  if ← workers.isBelow 1 then throw (.misconfigured (.belowOne "n_workers" workers))

/-- A pool that runs its tasks one after another. -/
def serial (workers : Value) : Except Failure Pool := do
  readSize workers
  return ⟨.serial, (← workers.toInt).toNat⟩

/-- A pool that runs its tasks side by side, in threads or processes.  The
queue of processes is one place longer than there are workers, and its length
has 31 bits. -/
def concurrent (workers kind : Value) : Except Failure Pool := do
  readSize workers
  let name := Text.lower kind.text
  let size := (← workers.toInt).toNat
  if name = "thread" then return ⟨.thread, size⟩
  else if name = "process" then
    if size + 1 < 2 ^ (31 : Nat) then return ⟨.process, size⟩ else throw .tooLarge
  else throw (.misconfigured (.unknownPoolKind name))

/-- The numbers of the workers. -/
def workers (p : Pool) : List Nat := List.range p.size

/-- Whether the workers can be listed: their number has 63 bits. -/
def isListable (p : Pool) : Bool := decide (p.size < 2 ^ (63 : Nat))

/-- Refuses a pool whose workers cannot be listed. -/
def checkListable (p : Pool) : Except Failure Unit :=
  if p.isListable then .ok () else .error .tooLarge

/-- The one-line description of a pool. -/
def describe (p : Pool) : String :=
  match p.kind with
  | .serial => s!"SerialPool(n_workers={p.size})"
  | .thread => s!"ExecutorPool(n_workers={p.size}, kind='thread')"
  | .process => s!"ExecutorPool(n_workers={p.size}, kind='process')"

end Pool

end Multistage
