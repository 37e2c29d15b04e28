import Instinct.Decimal.Shortest

/-! # How numbers are written

* **`Layout`** — the decisions that turn digits and an exponent into text.
* **`displayed`** — a number in running text: never an exponent, no point behind a whole number.
* **`written32`**, **`written64`** — numbers in data: always with a point, with an exponent where
  the plain form would be long.
* **`fixed`** — a number with a fixed count of places, a half rounded to the even neighbour. -/

namespace Instinct.Decimal

/-- **The decisions of a number format.** The point of `d₁d₂…dₙ * 10 ^ e` stands at `n + e`; from
`firstPlain` to `lastPlain` the number is written without an exponent. -/
structure Layout where
  firstPlain : Option Int
  lastPlain : Option Int
  /-- Whether a whole number is followed by `.0`. -/
  pointAlways : Bool
  /-- Which of two equally near choices of the last digit is taken. -/
  tie : Tie

namespace Layout

/-- Running text: no exponent and no point behind a whole number, and of two equally near choices
the one farther from zero. -/
def running : Layout := ⟨none, none, false, .outward⟩

/-- Single-precision numbers in data. -/
def data32 : Layout := ⟨some (-5), some 13, true, .even⟩

/-- Double-precision numbers in data. -/
def data64 : Layout := ⟨some (-4), some 16, true, .even⟩

/-- Digits with the point at `point`. -/
def plain (l : Layout) (digits : List Char) (point : Int) : List Char :=
  if point ≤ 0 then '0' :: '.' :: (zeros (-point).toNat ++ digits)
  else
    let whole := point.toNat
    if digits.length ≤ whole then
      digits ++ zeros (whole - digits.length) ++ (if l.pointAlways then ['.', '0'] else [])
    else digits.take whole ++ '.' :: digits.drop whole

/-- One digit, the point, the other digits and the exponent with its sign. -/
def scientific (digits : List Char) (point : Int) : List Char :=
  let e := point - 1
  let mark := if e < 0 then '-' else '+'
  let tail := if digits.length ≤ 1 then [] else '.' :: digits.drop 1
  digits.take 1 ++ tail ++ 'e' :: mark :: digitsOf e.natAbs

/-- Digits and exponent as text. -/
def magnitude (l : Layout) (digits : List Char) (exponent : Int) : List Char :=
  let point := exponent + digits.length
  if l.firstPlain.all (· ≤ point) && l.lastPlain.all (point ≤ ·) then l.plain digits point
  else scientific digits point

/-- **A floating-point number as text.** -/
def text (l : Layout) : Parts → String
  | .nan => "NaN"
  | .infinite negative => if negative then "-inf" else "inf"
  | .finite negative mantissa exponent narrowBelow =>
    let body :=
      if mantissa = 0 then (if l.pointAlways then ['0', '.', '0'] else ['0'])
      else
        let (digits, k) := shortest l.tie mantissa exponent narrowBelow
        l.magnitude digits k
    String.ofList (if negative then '-' :: body else body)

end Layout

/-- **A number in running text**: the fewest digits that read back, never an exponent. -/
def displayed (x : Float32) : String := Layout.running.text (partsOf32 x)

/-- **A single-precision number in data.** -/
def written32 (x : Float32) : String := Layout.data32.text (partsOf32 x)

/-- **A double-precision number in data.** -/
def written64 (x : Float) : String := Layout.data64.text (partsOf64 x)

/-- The whole number nearest to a fraction, the even one of two. -/
def roundDiv (numerator denominator : Nat) : Nat :=
  let q := numerator / denominator
  let r := numerator % denominator
  if denominator < 2 * r || (denominator == 2 * r && q % 2 == 1) then q + 1 else q

/-- **A number with a fixed count of places.** The sign is kept even where all digits are zero. -/
def fixed (places : Nat) (x : Float32) : String :=
  match partsOf32 x with
  | .nan => "NaN"
  | .infinite negative => if negative then "-inf" else "inf"
  | .finite negative mantissa exponent _ =>
    let n := roundDiv (mantissa * Nat.pow 2 exponent.toNat * Nat.pow 10 places)
      (Nat.pow 2 (-exponent).toNat)
    let digits := padLeft (places + 1) (digitsOf n)
    let whole := digits.length - places
    let body :=
      if places = 0 then digits else digits.take whole ++ '.' :: digits.drop whole
    String.ofList (if negative then '-' :: body else body)

end Instinct.Decimal
