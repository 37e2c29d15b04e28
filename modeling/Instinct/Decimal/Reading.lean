import Instinct.Decimal.Digits

/-! # Decimal numerals read as floating-point numbers

* **`Numeral`** — digits before and behind a point, and an exponent.
* **`Numeral.ofChars?`** — the numeral that a text spells, with every part but one digit optional.
* **`Numeral.toFloat32`**, **`Numeral.toFloat`** — the nearest single- or double-precision number.
* **`float32OfText?`**, **`floatOfText?`** — texts that may also name an infinity or no number. -/

namespace Instinct.Decimal

/-- **A decimal numeral** without a sign. -/
structure Numeral where
  /-- The digits before the point. -/
  whole : List Char
  /-- The digits behind the point. -/
  fraction : List Char
  /-- The power of ten that the numeral is scaled by. -/
  exponent : Int
deriving DecidableEq

namespace Numeral

/-- The digits of the numeral as one number, still to be scaled by `10 ^ scale`. -/
def significand (n : Numeral) : Nat := ofDigits (n.whole ++ n.fraction)

/-- The power of ten by which the significand is scaled. -/
def scale (n : Numeral) : Int := n.exponent - n.fraction.length

/-- The single-precision number nearest to a numeral. -/
def toFloat32 (n : Numeral) : Float32 :=
  Float32.ofScientific n.significand (decide (n.scale < 0)) n.scale.natAbs

/-- The double-precision number nearest to a numeral. -/
def toFloat (n : Numeral) : Float :=
  Float.ofScientific n.significand (decide (n.scale < 0)) n.scale.natAbs

/-- An exponent behind its mark: a sign, which may be missing, and at least one digit. -/
def exponentOfChars? : List Char → Option Int
  | [] => none
  | c :: cs =>
    let (negative, digits) :=
      if c = '-' then (true, cs) else if c = '+' then (false, cs) else (false, c :: cs)
    if digits.isEmpty || !digits.all isDigit then none
    else some (if negative then -(ofDigits digits : Int) else ofDigits digits)

/-- **The numeral that a text spells**: digits with a point before, among or behind them, and an
exponent, which may be missing. -/
def ofChars? (cs : List Char) : Option Numeral :=
  let whole := cs.takeWhile isDigit
  let rest := cs.dropWhile isDigit
  let (fraction, rest) :=
    match rest with
    | '.' :: r => (r.takeWhile isDigit, r.dropWhile isDigit)
    | r => ([], r)
  if whole.isEmpty && fraction.isEmpty then none
  else
    match rest with
    | [] => some ⟨whole, fraction, 0⟩
    | c :: r =>
      if c = 'e' || c = 'E' then (exponentOfChars? r).map fun e => ⟨whole, fraction, e⟩ else none

end Numeral

/-- What a text without a sign spells: a numeral, `none` for infinity, or nothing at all. Infinity
is written `inf` or `infinity` in letters of any case. -/
def magnitudeOfChars? (cs : List Char) : Option (Option Numeral) :=
  let lower := String.ofList (cs.map Char.toLower)
  if lower = "inf" || lower = "infinity" then some none
  else (Numeral.ofChars? cs).map some

/-- The sign in front of a text and the rest. -/
def splitSign : List Char → Bool × List Char
  | '-' :: cs => (true, cs)
  | '+' :: cs => (false, cs)
  | cs => (false, cs)

/-- **The single-precision number that a text spells**, with `nan` and the infinities. -/
def float32OfText? (s : String) : Option Float32 :=
  let (negative, cs) := splitSign s.toList
  if (String.ofList (cs.map Char.toLower)) = "nan" then some (0 / 0)
  else
    (magnitudeOfChars? cs).map fun n =>
      let x := match n with | some n => n.toFloat32 | none => 1 / 0
      if negative then -x else x

/-- **The double-precision number that a text spells**, with `nan` and the infinities. -/
def floatOfText? (s : String) : Option Float :=
  let (negative, cs) := splitSign s.toList
  if (String.ofList (cs.map Char.toLower)) = "nan" then some (0 / 0)
  else
    (magnitudeOfChars? cs).map fun n =>
      let x := match n with | some n => n.toFloat | none => 1 / 0
      if negative then -x else x

end Instinct.Decimal
