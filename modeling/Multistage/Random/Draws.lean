/-
Multistage.Random.Draws — streams of random numbers.

A stream is a sequence with a position: the number drawn at each position is
fixed from the start, and drawing moves the position by one.
-/
import Multistage.Value.Number

namespace Multistage

-- Powers are the plain ones, also where a library of algebra offers its own.
attribute [local instance (high)] instPowNat

/-- A stream of numbers in `[0, 1)`, and how many were drawn. -/
structure Draws (α : Type) where
  sequence : Nat → α
  position : Nat

namespace Draws

variable {α : Type}

/-- Draws one number. -/
def next : Transition (Draws α) α := do
  let d ← get
  set { d with position := d.position + 1 }
  return d.sequence d.position

/-- The stream that repeats a list of numbers, starting with `first`. -/
def cycle (first : α) (rest : List α) : Draws α where
  sequence k := ((first :: rest)[k % (rest.length + 1)]?).getD first
  position := 0

end Draws

/-! ## Seeds -/

/-- Number types with a generator that is seeded with 32-bit words. -/
class Seeded (α : Type) where
  draws : List UInt32 → Draws α

namespace Seed

/-- The 32-bit words of a number after the first, least significant
first. -/
def higherWords (n : Nat) : List UInt32 :=
  if h : n = 0 then [] else UInt32.ofNat (n % 2 ^ (32 : Nat)) :: higherWords (n / 2 ^ (32 : Nat))
termination_by n
decreasing_by omega

/-- The 32-bit words of a number, least significant first. -/
def wordsOfNat (n : Nat) : List UInt32 :=
  if n = 0 then [0] else higherWords n

/-- The words of a whole number, which may not be negative. -/
def wordsOfInt : Int → Except Failure (List UInt32)
  | .ofNat n => .ok (wordsOfNat n)
  | .negSucc _ => .error (.badValue "expected non-negative integer")

/-- The words of a text inside a seed: it has to be a whole number that starts
with a hexadecimal prefix or with a digit. -/
def wordsOfText (s : String) : Except Failure (List UInt32) :=
  let parsed := match s.toList with
    | '0' :: 'x' :: _ => (Decimal.parseHex? s).map Int.ofNat
    | c :: _ => if c.isDigit then Decimal.parseInt? s else none
    | [] => none
  match parsed with
  | some i => wordsOfInt i
  | none => .error (.badValue "unrecognized seed text")

/-- The words of a seed that is no list. -/
def wordsOfNumber (v : Value) : Except Failure (List UInt32) := do
  match ← v.number with
  | .whole i => wordsOfInt i
  | .real _ => throw .wrongKind

mutual

/-- The words of a seed: a whole number, or a list of parts, whose words stand
one after another. -/
def words : Value → Except Failure (List UInt32)
  | .list parts => wordsOfParts parts
  | v => wordsOfNumber v

/-- The words of the parts of a seed; inside a list a part may be a text, or a
record, whose names are texts. -/
def wordsOfParts : List Value → Except Failure (List UInt32)
  | [] => .ok []
  | .string s :: rest => return (← wordsOfText s) ++ (← wordsOfParts rest)
  | .record fields :: rest => do
    let names ← fields.mapM fun (name, _) => wordsOfText name
    return names.flatten ++ (← wordsOfParts rest)
  | v :: rest => return (← words v) ++ (← wordsOfParts rest)

end

end Seed

/-- The stream of a seed; without one any stream will do. -/
def Draws.ofSeed {α : Type} [Seeded α] (seed : Value) : Except Failure (Draws α) := do
  match seed with
  | .null => return Seeded.draws []
  | v => return Seeded.draws (← Seed.words v)

end Multistage
