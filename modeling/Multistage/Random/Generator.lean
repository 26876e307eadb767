/-
Multistage.Random.Generator — a permuted congruential generator.

The state is a 128-bit number that a fixed affine map moves along; each draw
folds the state to 64 bits, rotates them by its top bits and keeps 53 as a
double.  A seed of any size is stirred into the starting state by 32-bit
mixing.  Since the map is affine, the state after `k` steps is found with
about `log k` multiplications, so each position of the stream has a direct
formula.
-/
import Multistage.Random.Draws

namespace Multistage.Generator

-- Powers are the plain ones, also where a library of algebra offers its own.
attribute [local instance (high)] instPowNat

/-! ## Stirring the seed -/

/-- A running hash: hashes a word and moves the hash constant on. -/
def hashWord (multiplier : UInt32) (h v : UInt32) : UInt32 × UInt32 :=
  let h' := h * multiplier
  let v := (v ^^^ h) * h'
  (v ^^^ (v >>> 16), h')

/-- Mixes two words. -/
def mix (x y : UInt32) : UInt32 :=
  let r := 0xca01f9dd * x - 0x4973f715 * y
  r ^^^ (r >>> 16)

/-- Four words of entropy and the hash constant. -/
structure Pool where
  word : List UInt32
  hash : UInt32

/-- Hashes one word and mixes it into a place of the pool. -/
def Pool.stir (p : Pool) (place : Nat) (v : UInt32) : Pool :=
  let (v, h) := hashWord 0x931e8875 p.hash v
  ⟨p.word.set place (mix (p.word.getD place 0) v), h⟩

/-- The pool that holds the hashed first four words of a seed. -/
def Pool.start (entropy : List UInt32) : Pool :=
  (List.range 4).foldl
    (fun p i =>
      let (v, h) := hashWord 0x931e8875 p.hash (entropy.getD i 0)
      ⟨p.word ++ [v], h⟩)
    ⟨[], 0x43b0d7e5⟩

/-- Stirs every word of the pool into every other. -/
def Pool.blend (p : Pool) : Pool :=
  (List.range 4).foldl
    (fun p i => (List.range 4).foldl
      (fun p j => if i = j then p else p.stir j (p.word.getD i 0)) p)
    p

/-- Stirs further words of the seed into the whole pool. -/
def Pool.absorb (p : Pool) (entropy : List UInt32) : Pool :=
  entropy.foldl (fun p v => (List.range 4).foldl (fun p j => p.stir j v) p) p

/-- Eight output words. -/
def Pool.output (p : Pool) : List UInt32 :=
  ((List.range 8).foldl
    (fun (acc : List UInt32 × UInt32) i =>
      let (v, h) := hashWord 0x58f38ded acc.2 (p.word.getD (i % 4) 0)
      (acc.1 ++ [v], h))
    ([], 0x8b51f9dd)).1

/-- The output words of a seed. -/
def seedWords (seed : List UInt32) : List Nat :=
  (((Pool.start seed).blend.absorb (seed.drop 4)).output).map UInt32.toNat

/-! ## The state -/

/-- The modulus of the state. -/
def modulus : Nat := 2 ^ (128 : Nat)

/-- The multiplier of the state. -/
def multiplier : Nat := 0x2360ed051fc65da44385df649fccf645

/-- The map `x ↦ scale · x + shift` on 128-bit states. -/
structure Affine where
  scale : Nat
  shift : Nat

/-- The value of an affine map. -/
def Affine.apply (f : Affine) (x : Nat) : Nat := (f.scale * x + f.shift) % modulus

/-- First `f`, then `g`. -/
def Affine.andThen (f g : Affine) : Affine :=
  ⟨g.scale * f.scale % modulus, (g.scale * f.shift + g.shift) % modulus⟩

/-- A map applied `k` times. -/
def Affine.iterate (f : Affine) (k : Nat) : Affine :=
  if h : k = 0 then ⟨1, 0⟩
  else
    let half := (f.andThen f).iterate (k / 2)
    if k % 2 = 0 then half else f.andThen half
termination_by k
decreasing_by omega

/-- A step map and a starting state. -/
structure Source where
  step : Affine
  start : Nat

/-- The source of a seed. -/
def Source.ofSeed (seed : List UInt32) : Source :=
  let w := seedWords seed
  let long (k : Nat) : Nat := w.getD (2 * k) 0 + w.getD (2 * k + 1) 0 * 2 ^ (32 : Nat)
  let increment := ((long 2 * 2 ^ (64 : Nat) + long 3) * 2 + 1) % modulus
  let step : Affine := ⟨multiplier, increment⟩
  ⟨step, step.apply ((increment + long 0 * 2 ^ (64 : Nat) + long 1) % modulus)⟩

/-- A 64-bit number rotated to the right. -/
def rotateRight (x k : Nat) : Nat :=
  (x / 2 ^ (k % 64) + x * 2 ^ (64 - k % 64)) % 2 ^ (64 : Nat)

/-- The 53 bits that a state yields. -/
def outputBits (state : Nat) : Nat :=
  let folded := (state / 2 ^ (64 : Nat)) ^^^ (state % 2 ^ (64 : Nat))
  rotateRight folded (state / 2 ^ (122 : Nat)) / 2 ^ (11 : Nat)

/-- The bits of the draw at a position. -/
def Source.bitsAt (s : Source) (k : Nat) : Nat :=
  outputBits ((s.step.iterate (k + 1)).apply s.start)

/-- The stream of a seed, as doubles. -/
def stream (seed : List UInt32) : Draws Float :=
  let source := Source.ofSeed seed
  { sequence := fun k => Float.ofNat (source.bitsAt k) / 9007199254740992.0
    position := 0 }

end Multistage.Generator

instance : Multistage.Seeded Float := ⟨Multistage.Generator.stream⟩
