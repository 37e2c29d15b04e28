import Instinct.Decimal.Binary
import Instinct.Decimal.Digits

/-! # The fewest decimal digits that read back

A floating-point number is one of many, and every real number close enough to it is rounded to it.
The grids of the multiples of `10 ^ k` are tried from the coarsest on, and the first one that has a
point close enough gives the digits.

* **`Tie`** — which of two points that are equally near is taken.
* **`Span`** — a positive number and the interval of all that is rounded to it, over one
  denominator.
* **`Span.hit`** — the point of a grid that is close enough, the nearer one of two.
* **`shortest`** — the digits and the power of ten that they are scaled by. -/

namespace Instinct.Decimal

/-- **Which of two points that are equally near is taken.** -/
inductive Tie where
  /-- The one with the even last digit. -/
  | even
  /-- The one farther from zero. -/
  | outward
deriving DecidableEq

/-- Whether the lower of two points that are equally near is taken; it is given by its factor. -/
def Tie.takesLower : Tie → Nat → Bool
  | even, below => below % 2 == 0
  | outward, _ => false

/-- **A positive number and the interval of all that is rounded to it**, as numerators over one
denominator. -/
structure Span where
  value : Nat
  low : Nat
  high : Nat
  denominator : Nat
  /-- Whether the ends of the interval are rounded to the number too. -/
  closed : Bool

namespace Span

/-- The interval around `mantissa * 2 ^ exponent`. A tie is rounded to the even mantissa, so the
ends belong to the number exactly if its mantissa is even. -/
def ofParts (mantissa : Nat) (exponent : Int) (narrowBelow : Bool) : Span :=
  let unit := Nat.pow 2 exponent.toNat
  let value := 4 * mantissa * unit
  { value
    low := value - (if narrowBelow then unit else 2 * unit)
    high := value + 2 * unit
    denominator := 4 * Nat.pow 2 (-exponent).toNat
    closed := mantissa % 2 == 0 }

/-- Whether a numerator lies in the interval. -/
def contains (s : Span) (n : Nat) : Bool :=
  if s.closed then s.low ≤ n && n ≤ s.high else s.low < n && n < s.high

/-- The interval with all numerators scaled. -/
def scale (s : Span) (k : Nat) : Span :=
  { s with value := s.value * k, low := s.low * k, high := s.high * k }

/-- The multiple of `step` in the interval that is nearest to the number, by its factor. Nothing if
neither neighbour of the number is in the interval. -/
def hitMultiple (s : Span) (tie : Tie) (step : Nat) : Option Nat :=
  let below := s.value / step
  let above := below + 1
  let downHit := below != 0 && s.contains (below * step)
  let upHit := s.contains (above * step)
  if downHit && upHit then
    let down := s.value - below * step
    let up := above * step - s.value
    if down < up || (down == up && tie.takesLower below) then some below else some above
  else if downHit then some below
  else if upHit then some above
  else none

/-- The point of the grid of multiples of `10 ^ k` that is close enough, by its factor. -/
def hit (s : Span) (tie : Tie) (k : Int) : Option Nat :=
  (s.scale (Nat.pow 10 (-k).toNat)).hitMultiple tie (Nat.pow 10 k.toNat * s.denominator)

/-- The first hit on the grids for `k`, `k - 1`, …, with the `k` of its grid. -/
def firstHit (s : Span) (tie : Tie) (k : Int) : (grids : Nat) → Nat × Int
  | 0 => (0, 0)
  | grids + 1 =>
    match s.hit tie k with
    | some n => (n, k)
    | none => s.firstHit tie (k - 1) grids

end Span

/-- **The shortest digits** of `mantissa * 2 ^ exponent` and the power of ten that they are scaled
by. No grid coarser than `10 ^ 310` or finer than `10 ^ -330` is needed for numbers of at most
double precision. -/
def shortest (tie : Tie) (mantissa : Nat) (exponent : Int) (narrowBelow : Bool) :
    List Char × Int :=
  let (n, k) := (Span.ofParts mantissa exponent narrowBelow).firstHit tie 310 640
  (digitsOf n, k)

end Instinct.Decimal
