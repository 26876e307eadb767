/-
Multistage.Statistics.StudentT — quantiles of Student's distribution.

For a whole number of degrees of freedom the distribution function is a
finite sum, so the quantile is found by bisection; with one or two degrees it
has a closed form.  A tail probability is carried instead of the level, since
it keeps its digits near the ends.  A thin tail is itself a sum of positive
terms, which keeps its digits too; the finite sum, whose distance from one the
tail is, would lose them.
-/
import Multistage.Scalar
import Multistage.Binary64.Exact

namespace Multistage.StudentT

/-! ## The middle -/

/-- The ratio of a circle's circumference to its diameter. -/
def pi : Float := 3.141592653589793

/-- The terms of the sum after the first: each is the one before times the
squared cosine and a ratio of whole numbers. -/
def tailTerms (cos2 : Float) : Nat → Float → Float → Float → Float
  | 0, _, _, sum => sum
  | count + 1, k, term, sum =>
    let next := term * cos2 * (k / (k + 1.0))
    tailTerms cos2 count (k + 2.0) next (sum + next)

/-- The probability of a value between `-t` and `t`, for positive `t`. -/
def central (degrees : Nat) (t : Float) : Float :=
  let n := Float.ofNat degrees
  let sin := t / Float.sqrt (n + t * t)
  let cos2 := n / (n + t * t)
  if degrees % 2 = 0 then
    sin * tailTerms cos2 (degrees / 2 - 1) 1.0 1.0 1.0
  else
    let cos := Float.sqrt cos2
    let angle := Float.atan (t / Float.sqrt n)
    let sum := if degrees = 1 then 0.0 else tailTerms cos2 ((degrees - 3) / 2) 2.0 cos cos
    2.0 / pi * (angle + sin * sum)

/-! ## Tails -/

/-- The density of the distribution at zero, divided by the root of the degrees
of freedom: `1/π` and `1/2` for one and two degrees, and `(n+1)/n` times as much
for two degrees more. -/
def peak : Nat → Float
  | 0 => 0.0
  | 1 => 1.0 / pi
  | 2 => 0.5
  | n + 3 => peak (n + 1) * ((Float.ofNat n + 2.0) / (Float.ofNat n + 1.0))

/-- Adds the terms of a tail until they no longer count: term `k + 1` is term
`k` times `cos2 * (half + 1/2 + k) / (half + 1 + k)`. -/
def addTail (half cos2 : Float) : Nat → Float → Float → Float → Float
  | 0, _, _, sum => sum
  | fuel + 1, k, term, sum =>
    let term := term * cos2 * ((half + 0.5 + k) / (half + 1.0 + k))
    if sum + term == sum then sum else addTail half cos2 fuel (k + 1.0) term (sum + term)

/-- The probability of a value above `t`, for positive `t`. -/
def thinTail (degrees : Nat) (t : Float) : Float :=
  let n := Float.ofNat degrees
  let sin := t / Float.sqrt (n + t * t)
  let cos2 := n / (n + t * t)
  Float.pow (Float.sqrt cos2) n * sin * peak degrees / n *
    addTail (n / 2.0) cos2 (40 * degrees + 200) 0.0 1.0 1.0

/-- Whether more than a probability is left above `t`.  Thin tails are
compared themselves, others by what lies between them. -/
def isBefore (degrees : Nat) (tail t : Float) : Bool :=
  if tail < 0.125 then decide (tail < thinTail degrees t)
  else decide (central degrees t < 1.0 - 2.0 * tail)

/-! ## Bisection -/

/-- Doubles a bound until no more than a probability is left above it. -/
def bracket (degrees : Nat) (tail : Float) : Nat → Float → Float
  | 0, high => high
  | fuel + 1, high =>
    if isBefore degrees tail high then bracket degrees tail fuel (high * 2.0) else high

/-- Halves the interval around the value that is exceeded with a given
probability, until no double is left within. -/
def narrow (degrees : Nat) (tail : Float) : Nat → Float → Float → Float
  | 0, low, high => (low + high) / 2.0
  | fuel + 1, low, high =>
    let middle := (low + high) / 2.0
    if middle ≤ low || high ≤ middle then middle
    else if isBefore degrees tail middle then narrow degrees tail fuel middle high
    else narrow degrees tail fuel low middle

/-- The positive value that is exceeded with probability `tail`, for a tail
below one half. -/
def upper (degrees : Nat) (tail : Float) : Float :=
  if degrees = 1 then 1.0 / Float.tan (pi * tail)
  else if degrees = 2 then (1.0 - 2.0 * tail) / Float.sqrt (2.0 * tail * (1.0 - tail))
  else narrow degrees tail 1100 0.0 (bracket degrees tail 1000 1.0)

/-- The quantile of a level.  Levels zero and one lie at the infinities,
levels outside have no quantile. -/
def quantile (level : Float) (degrees : Nat) : Float :=
  if level < 0.0 || 1.0 < level || level.isNaN then Binary64.nan
  else if level == 0.0 then -Binary64.infinity
  else if level == 1.0 then Binary64.infinity
  else if level == 0.5 then 0.0
  else if level < 0.5 then -(upper degrees level)
  else upper degrees (1.0 - level)

end Multistage.StudentT

instance : Multistage.Statistical Float := .ofQuantile Multistage.StudentT.quantile
