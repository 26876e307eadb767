/-
Multistage.Report.Table — simulation tables and how they are joined.

A table lists columns by name, in a fixed order.  The column of total
objectives is a flat list; every other column has one list per stage.  Tables
of several workers are joined in worker order: the flat column end to end,
the others stage by stage.
-/
import Multistage.Failure
import Multistage.Named

namespace Multistage

/-- Entries nested in lists to any depth. -/
inductive Nested (ε : Type) where
  | entry (e : ε)
  | list (items : List (Nested ε))

instance {ε : Type} : Inhabited (Nested ε) := ⟨.list []⟩

/-- The items of a list; an entry is none. -/
def Nested.items {ε : Type} : Nested ε → Except Failure (List (Nested ε))
  | .list items => .ok items
  | .entry _ => .error .wrongKind

mutual

/-- The lists inside a value, to any depth. -/
def Nested.ofValue : Value → Nested Value
  | .list items => .list (ofValues items)
  | v => .entry v

/-- The lists inside several values. -/
def Nested.ofValues : List Value → List (Nested Value)
  | [] => []
  | v :: rest => ofValue v :: ofValues rest

end

/-- A value where a list is needed, to so many depths; a text is then the list
of its characters. -/
def Nested.ofListed : Nat → Value → Nested Value
  | 0, v => ofValue v
  | depth + 1, v =>
    match v.elements? with
    | some vs => .list (vs.map (ofListed depth))
    | none => .entry v

/-- Columns by name. -/
abbrev Table (ε : Type) := Named (Nested ε)

/-- The name of the flat column. -/
def objectiveKey : Value := "Objective"

namespace Table

/-- The column of a name out of a value: a list, or a list per stage. -/
def columnOf (key v : Value) : Nested Value :=
  Nested.ofListed (if key = objectiveKey then 1 else 2) v

variable {ε : Type}

/-- The names of the columns. -/
def keys (t : Table ε) : List Value := t.map Prod.fst

/-- A column in the form in which it can be joined: the flat one as a list,
another as a list of lists. -/
def openColumn (key : Value) (column : Nested ε) : Except Failure (Nested ε) := do
  let items ← column.items
  if key = objectiveKey then return .list items
  let stages ← items.mapM Nested.items
  return .list (stages.map .list)

/-- Two lists of stage lists joined stage by stage. -/
def joinStages : List (Nested ε) → List (Nested ε) → Except Failure (List (Nested ε))
  | a :: as, b :: bs => do
    let joined := (← a.items) ++ (← b.items)
    return .list joined :: (← joinStages as bs)
  | as, [] => return as
  | [], _ => return []

/-- A column joined with the column of the same name of a further table. -/
def joinColumn (key : Value) (total : Nested ε) (further : Table ε) :
    Except Failure (Nested ε) := do
  match further.get? key with
  | none => throw (.inconsistent (.missingKey key))
  | some column =>
    let present ← total.items
    let more ← column.items
    if key = objectiveKey then return .list (present ++ more)
    if more.length ≠ present.length then
      throw (.inconsistent (.stageCount key more.length present.length))
    return .list (← joinStages present more)

/-- The names of a further table that the first one lacks, sorted. -/
def surplusKeys (total further : Table ε) : Except Failure (List Value) :=
  Named.sortNames (further.keys.filter fun k => (total.get? k).isNone)

/-- A table joined with a further one. -/
def join (total further : Table ε) : Except Failure (Table ε) := do
  let surplus ← surplusKeys total further
  if !surplus.isEmpty then throw (.inconsistent (.surplusKeys surplus))
  total.mapM fun (key, column) => do return (key, ← joinColumn key column further)

/-- The tables of all workers joined in worker order; the names and their
order are those of the first. -/
def joinAll : List (Table ε) → Except Failure (Table ε)
  | [] => .ok []
  | first :: rest => do
    let total ← first.mapM fun (key, column) => do return (key, ← openColumn key column)
    rest.foldlM join total

end Table

end Multistage
