/-
Multistage.Named — values by name, in order.

A named list holds one value per name.  Putting a value under a name that is
already there replaces the value and keeps the place; a new name goes to the
end.  A name is mostly a text, but numbers and other values are names too;
equal numbers are one name, which stays as it was first given.
-/
import Multistage.Value.Number

namespace Multistage

/-- Values by name, in the order in which the names came up. -/
abbrev Named (β : Type) := List (Value × β)

namespace Named

variable {β : Type}

/-- The value of a name. -/
def get? (xs : Named β) (name : Value) : Option β :=
  (xs.find? fun (k, _) => k.isSame name).map Prod.snd

/-- The list with the value of a name set. -/
def put (xs : Named β) (name : Value) (b : β) : Named β :=
  match xs with
  | [] => [(name, b)]
  | (k, c) :: rest => if k.isSame name then (k, b) :: rest else (k, c) :: put rest name b

/-- The list with further values put in, one after another. -/
def update (xs further : Named β) : Named β :=
  further.foldl (fun acc (k, b) => put acc k b) xs

/-- The list of pairs in which names may repeat: a repeated name keeps its
first place and takes its last value. -/
def ofPairs (pairs : List (Value × β)) : Named β := update [] pairs

/-- Values for parameters: first some in the order of the parameters, then
some by name.  There is no list if a value has no parameter left to go to, or
if a parameter would have two values. -/
def bind (parameters : List Value) (inOrder : List β) (byName : Named β) : Option (Named β) :=
  let placed : Named β := parameters.zip inOrder
  let isFree (name : Value) : Bool := parameters.contains name && (placed.get? name).isNone
  if inOrder.length ≤ parameters.length ∧ byName.all (fun (name, _) => isFree name) then
    some (placed ++ byName)
  else none

/-! ## Sorted names -/

/-- Whether a name goes before another one: numbers by size, texts by code
point.  Other names have no order, and neither have two names of which only
one is a number. -/
def precedes? (a b : Value) : Option Bool :=
  match a.number, b.number with
  | .ok m, .ok n => some (m.isBelow n)
  | _, _ =>
    match a, b with
    | .string s, .string t => some (decide (s < t))
    | _, _ => none

/-- Items put in the order of their names, which have to compare. -/
def sortBy (name : β → Value) (items : List β) : Except Failure (List β) :=
  let comparable (a b : β) : Bool := (precedes? (name a) (name b)).isSome
  match items with
  | [] => .ok []
  | first :: rest =>
    if rest.all (comparable first) then
      .ok (items.mergeSort fun a b => precedes? (name b) (name a) != some true)
    else .error .wrongKind

/-- Names in order. -/
def sortNames (names : List Value) : Except Failure (List Value) := sortBy id names

/-- The list in the order of its names. -/
def sorted (xs : Named β) : Except Failure (Named β) := sortBy Prod.fst xs

/-! ## Named lists out of values -/

/-- Refuses lists and records, which are no names. -/
def checkName : Value → Except Failure Unit
  | .list _ | .record _ => .error .wrongKind
  | _ => .ok ()

/-- The name and the value of one entry of a list of entries: the two items of
a pair, or the two characters of a text. -/
def entryOf (v : Value) : Except Failure (Value × Value) :=
  match v with
  | .list [k, w] => do
    checkName k
    return (k, w)
  | .list _ => .error (.badValue "an entry has to be a pair")
  | .string s =>
    match s.toList with
    | [a, b] => .ok (.string (String.singleton a), .string (String.singleton b))
    | _ => .error (.badValue "an entry has to be a pair")
  | .record [(k, _), (l, _)] => .ok (.string k, .string l)
  | .record _ => .error (.badValue "an entry has to be a pair")
  | _ => .error .wrongKind

/-- The named list of a list of entries. -/
def ofEntries (entries : List Value) : Except Failure (Named Value) :=
  return ofPairs (← entries.mapM entryOf)

/-- The named list that a value stands for: the fields of a record, or the
entries of a list; nothing for a value that counts as false. -/
def ofValue (v : Value) : Except Failure (Named Value) :=
  if !v.truthy then .ok []
  else match v with
    | .record fields => .ok (fields.map fun (k, w) => (.string k, w))
    | .list entries => ofEntries entries
    | .string _ => .error (.badValue "an entry has to be a pair")
    | _ => .error .wrongKind

end Named

end Multistage
