/-
Multistage.Value.Unified — values brought to one kind.

The entries of an array are of one kind.  Truth becomes a number among
numbers; whole numbers become doubles among doubles, and where no range of 64
bits holds all of them; everything becomes a text among texts.  An array with
a value of any other kind, or with a whole number beyond 64 bits, keeps its
entries as they are.
-/
import Multistage.Value.Convert

namespace Multistage.Value

-- Powers are the plain ones, also where a library of algebra offers its own.
attribute [local instance (high)] instPowNat

/-- The kinds of entry that an array may have.  Whole numbers have 64 bits,
with a sign or without one. -/
inductive EntryKind where
  | truth
  | whole
  | unsigned
  | double
  | text
  | any
  deriving Repr, DecidableEq

/-- The kind of entry that a value is by itself. -/
def entryKind : Value → EntryKind
  | bool _ => .truth
  | int i =>
    if -(2 ^ (63 : Nat)) ≤ i ∧ i < 2 ^ (63 : Nat) then .whole
    else if 0 ≤ i ∧ i < 2 ^ (64 : Nat) then .unsigned
    else .any
  | float _ => .double
  | string _ => .text
  | null | list _ | record _ => .any

/-- The kind to which entries of two kinds are brought. -/
def EntryKind.join : EntryKind → EntryKind → EntryKind
  | any, _ | _, any => any
  | text, _ | _, text => text
  | truth, k | k, truth => k
  | whole, whole => whole
  | unsigned, unsigned => unsigned
  | _, _ => double

/-- A text without the zero characters at its end. -/
def withoutPadding (s : String) : String :=
  String.ofList ((s.toList.reverse.dropWhile (· == Char.ofNat 0)).reverse)

/-- A value brought to a kind. -/
def toKind (kind : EntryKind) (v : Value) : Except Failure Value :=
  match kind with
  | .truth | .any => .ok v
  | .whole | .unsigned => return int (← v.toInt)
  | .double => return float (← v.toFloat)
  | .text => .ok (string (withoutPadding v.text))

/-- Values brought to one kind; without values there is nothing to do. -/
def unify (vs : List Value) : Except Failure (List Value) :=
  match vs.map entryKind with
  | [] => .ok []
  | k :: kinds => vs.mapM (toKind (kinds.foldl EntryKind.join k))

end Multistage.Value
