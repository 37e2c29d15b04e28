import Instinct.Json
import Instinct.Decimal.Digits

/-! # Reading JSON

* **`Json.parse?`** — the value that a text spells; nothing if it spells none or something follows.
* **`readNumber`** — a number: an integer if it has neither point nor exponent and fits into 64
  bits.
* **`readText`** — a text with its escapes taken back.

Double-precision numbers are read by scaling a 64-bit significand with a power of ten, which rounds
twice for very long numerals; `Spelling.toFloat` states the steps. -/

namespace Instinct.Json

open Decimal (isDigit ofDigits)

/-- Whether a character is blank between the parts of a value. -/
def isBlank (c : Char) : Bool := c = ' ' || c = '\n' || c = '\t' || c = '\r'

/-- A text without the blanks in front. -/
def skipBlanks (cs : List Char) : List Char := cs.dropWhile isBlank

/-! ## Numbers -/

/-- The largest significand that is taken in digit by digit. -/
def largestSignificand : Nat := 18446744073709551615

/-- Take in the digits before the point. Digits past the largest significand only scale. -/
def takeWhole : List Char → (significand : Nat) → Nat × Int
  | [], n => (n, 0)
  | c :: cs, n =>
    let next := 10 * n + (c.toNat - 48)
    if next ≤ largestSignificand then takeWhole cs next else (n, (cs.length : Int) + 1)

/-- Take in the digits behind the point. Digits past the largest significand are left out. -/
def takeFraction : List Char → (significand : Nat) → (scale : Int) → Nat × Int
  | [], n, e => (n, e)
  | c :: cs, n, e =>
    let next := 10 * n + (c.toNat - 48)
    if next ≤ largestSignificand then takeFraction cs next (e - 1) else (n, e)

/-- A power of ten in double precision. -/
def powerOfTen (k : Nat) : Float := Float.ofScientific 1 false k

/-- A double-precision number scaled by a power of ten: one multiplication or division, two
divisions for very small results. Nothing if the result is too large. -/
def scaleDouble (x : Float) (e : Int) : Option Float :=
  if 0 ≤ e then
    if e ≤ 308 then
      let y := x * powerOfTen e.toNat
      if y.isFinite then some y else none
    else if x == 0 then some x else none
  else if -308 ≤ e then some (x / powerOfTen e.natAbs)
  else
    let y := x / powerOfTen 308
    let e := e + 308
    if -308 ≤ e then some (y / powerOfTen e.natAbs) else some 0

/-- A number as it is spelled. -/
structure Spelling where
  negative : Bool
  whole : List Char
  /-- The digits behind the point, if there is a point. -/
  fraction : Option (List Char)
  /-- The sign and the digits of the exponent, if there is one. -/
  exponent : Option (Bool × List Char)

namespace Spelling

/-- The exponent; one of more than nine digits counts as a thousand million. -/
def exponentValue (s : Spelling) : Int :=
  match s.exponent with
  | none => 0
  | some (negative, digits) =>
    let n := min (ofDigits digits) 1000000000
    if negative then -(n : Int) else n

/-- **The double-precision number that is spelled**, or infinity if it is too large. -/
def toFloat (s : Spelling) : Float :=
  let (n, e) := takeWhole s.whole 0
  let (n, e) := takeFraction (s.fraction.getD []) n e
  let x := (scaleDouble (Float.ofNat n) (e + s.exponentValue)).getD (1 / 0)
  if s.negative then -x else x

/-- **The number that is spelled.** Zero with a sign is kept as a double-precision number. -/
def value (s : Spelling) : Json :=
  match s.fraction, s.exponent with
  | none, none =>
    let n := ofDigits s.whole
    if s.negative then
      if 0 < n ∧ n ≤ 9223372036854775808 then int (-(n : Int)) else double s.toFloat
    else if n ≤ largestSignificand then int n else double s.toFloat
  | _, _ => double s.toFloat

end Spelling

/-- Digits in front and the rest; at least one digit has to be there. -/
def readDigits (cs : List Char) : Option (List Char × List Char) :=
  let digits := cs.takeWhile isDigit
  if digits.isEmpty then none else some (digits, cs.dropWhile isDigit)

/-- The digits before the point. Only zero itself starts with a zero. -/
def readWhole (cs : List Char) : Option (List Char × List Char) :=
  match readDigits cs with
  | some (digits, rest) => if digits.head? = some '0' ∧ digits ≠ ['0'] then none
    else some (digits, rest)
  | none => none

/-- The point and the digits behind it, if there is a point. -/
def readFraction : List Char → Option (Option (List Char) × List Char)
  | '.' :: cs => (readDigits cs).map fun r => (some r.1, r.2)
  | cs => some (none, cs)

/-- The exponent with its sign, if there is one. -/
def readExponent : List Char → Option (Option (Bool × List Char) × List Char)
  | c :: cs =>
    if c = 'e' || c = 'E' then
      let (negative, cs) :=
        match cs with
        | '-' :: r => (true, r)
        | '+' :: r => (false, r)
        | r => (false, r)
      (readDigits cs).map fun r => (some (negative, r.1), r.2)
    else some (none, c :: cs)
  | [] => some (none, [])

/-- **A number** and the rest of the text. -/
def readNumber (cs : List Char) : Option (Json × List Char) := do
  let (negative, cs) :=
    match cs with
    | '-' :: r => (true, r)
    | r => (false, r)
  let (whole, cs) ← readWhole cs
  let (fraction, cs) ← readFraction cs
  let (exponent, cs) ← readExponent cs
  return (Spelling.value ⟨negative, whole, fraction, exponent⟩, cs)

/-! ## Texts -/

/-- The value of a hexadecimal digit. -/
def hexValue (c : Char) : Option Nat :=
  let n := c.toNat
  if 48 ≤ n ∧ n ≤ 57 then some (n - 48)
  else if 97 ≤ n ∧ n ≤ 102 then some (n - 87)
  else if 65 ≤ n ∧ n ≤ 70 then some (n - 55)
  else none

/-- The value of four hexadecimal digits. -/
def hexFour (a b c d : Char) : Option Nat := do
  let a ← hexValue a
  let b ← hexValue b
  let c ← hexValue c
  let d ← hexValue d
  return ((a * 16 + b) * 16 + c) * 16 + d

/-- The character that a one-letter escape stands for. -/
def simpleEscape (c : Char) : Option Char :=
  if c = '"' then some '"'
  else if c = '\\' then some '\\'
  else if c = '/' then some '/'
  else if c = 'b' then some (Char.ofNat 8)
  else if c = 'f' then some (Char.ofNat 12)
  else if c = 'n' then some '\n'
  else if c = 'r' then some '\r'
  else if c = 't' then some '\t'
  else none

/-- Whether a code unit is the first half of a pair. -/
def isHighHalf (n : Nat) : Bool := 0xD800 ≤ n && n < 0xDC00

/-- Whether a code unit is the second half of a pair. -/
def isLowHalf (n : Nat) : Bool := 0xDC00 ≤ n && n < 0xE000

/-- The character of a pair of code units. -/
def joinHalves (high low : Nat) : Char :=
  Char.ofNat (0x10000 + (high - 0xD800) * 1024 + (low - 0xDC00))

/-- A character in front of what a text reads as. -/
def consRead (c : Char) (r : Option (List Char) × List Char) : Option (List Char) × List Char :=
  (r.1.map (c :: ·), r.2)

/-- **A text up to its closing quote**, and the rest. Control characters have to be escaped. A text
in which half of a surrogate pair stands alone is read to its end, but as nothing. -/
def readText : List Char → Option (Option (List Char) × List Char)
  | [] => none
  | '"' :: rest => some (some [], rest)
  | '\\' :: 'u' :: a :: b :: c :: d :: rest =>
    match hexFour a b c d with
    | none => none
    | some n =>
      if isLowHalf n then (readText rest).map fun r => (none, r.2)
      else if isHighHalf n then
        match rest with
        | '\\' :: 'u' :: a' :: b' :: c' :: d' :: rest' =>
          match hexFour a' b' c' d' with
          | none => none
          | some n' =>
            if isLowHalf n' then (readText rest').map (consRead (joinHalves n n'))
            else (readText rest').map fun r => (none, r.2)
        | rest' => (readText rest').map fun r => (none, r.2)
      else (readText rest).map (consRead (Char.ofNat n))
  | '\\' :: c :: rest =>
    match simpleEscape c with
    | some e => (readText rest).map (consRead e)
    | none => none
  | c :: rest =>
    if c = '\\' || c.toNat < 32 then none else (readText rest).map (consRead c)

/-! ## Values -/

/-- What a text reads as. -/
def textOf : Option (List Char) → Json
  | some cs => text (String.ofList cs)
  | none => garbled

/-- The object of fields whose names were read, the last one first. -/
def objectOf (done : List (Option (List Char) × Json)) : Json :=
  match done.reverse.mapM fun f => f.1.map fun k => (String.ofList k, f.2) with
  | some fields => object fields
  | none => garbled

/-- A word in front of a text and the rest. -/
def readWord (word : List Char) (v : Json) (cs : List Char) : Option (Json × List Char) :=
  if word.isPrefixOf cs then some (v, cs.drop word.length) else none

mutual

/-- A value and the rest of the text. Every step into a value takes a character away, so the length
of the text is fuel enough. -/
def readValue : (fuel : Nat) → List Char → Option (Json × List Char)
  | 0, _ => none
  | fuel + 1, cs =>
    match skipBlanks cs with
    | [] => none
    | '{' :: rest =>
      match skipBlanks rest with
      | '}' :: rest => some (object [], rest)
      | rest => readFields fuel rest []
    | '[' :: rest =>
      match skipBlanks rest with
      | ']' :: rest => some (array [], rest)
      | rest => readItems fuel rest []
    | '"' :: rest => (readText rest).map fun r => (textOf r.1, r.2)
    | 'n' :: rest => readWord ['u', 'l', 'l'] null rest
    | 't' :: rest => readWord ['r', 'u', 'e'] (bool true) rest
    | 'f' :: rest => readWord ['a', 'l', 's', 'e'] (bool false) rest
    | rest => readNumber rest

/-- The items of a list and the rest of the text; `done` holds those already read, the last one
first. -/
def readItems : (fuel : Nat) → List Char → (done : List Json) → Option (Json × List Char)
  | 0, _, _ => none
  | fuel + 1, cs, done =>
    match readValue fuel cs with
    | none => none
    | some (v, rest) =>
      match skipBlanks rest with
      | ',' :: rest => readItems fuel rest (v :: done)
      | ']' :: rest => some (array (v :: done).reverse, rest)
      | _ => none

/-- The fields of an object and the rest of the text; `done` holds those already read, the last one
first. -/
def readFields : (fuel : Nat) → List Char → (done : List (Option (List Char) × Json)) →
    Option (Json × List Char)
  | 0, _, _ => none
  | fuel + 1, cs, done =>
    match skipBlanks cs with
    | '"' :: rest =>
      match readText rest with
      | none => none
      | some (k, rest) =>
        match skipBlanks rest with
        | ':' :: rest =>
          match readValue fuel rest with
          | none => none
          | some (v, rest) =>
            match skipBlanks rest with
            | ',' :: rest => readFields fuel rest ((k, v) :: done)
            | '}' :: rest => some (objectOf ((k, v) :: done), rest)
            | _ => none
        | _ => none
    | _ => none

end

/-- **The value that a text spells.** Nothing but blanks may follow it. -/
def parse? (s : String) : Option Json :=
  let cs := s.toList
  match readValue (cs.length + 1) cs with
  | some (v, rest) => if (skipBlanks rest).isEmpty then some v else none
  | none => none

end Instinct.Json
