import Instinct.Text.Unprintable
import Instinct.Duration
import Instinct.Decimal.Digits

/-! # Values in messages

* **`quoted`** — a text in quotes, with whatever cannot be shown escaped.
* **`Duration.text`** — a span in the largest unit that it fills, with no zeros at its end.
* **`optional`** — a value that may be missing. -/

namespace Instinct

namespace Text

/-- The hexadecimal digits of a number, in lower case. -/
def hexDigits (n : Nat) : List Char := Nat.toDigits 16 n

/-- A character inside a quoted text. -/
def quotedChar (c : Char) : List Char :=
  if c = '"' then ['\\', '"']
  else if c = '\\' then ['\\', '\\']
  else if c = '\n' then ['\\', 'n']
  else if c = '\r' then ['\\', 'r']
  else if c = '\t' then ['\\', 't']
  else if c.toNat = 0 then ['\\', '0']
  else if isUnprintable c then ['\\', 'u', '{'] ++ hexDigits c.toNat ++ ['}']
  else [c]

/-- **A text in quotes.** -/
def quoted (s : String) : String :=
  String.ofList ('"' :: (s.toList.flatMap quotedChar ++ ['"']))

/-- Texts in quotes, as a list. -/
def quotedList (ss : List String) : String := "[" ++ ", ".intercalate (ss.map quoted) ++ "]"

/-- A value that may be missing. -/
def optional (render : α → String) : Option α → String
  | some a => "Some(" ++ render a ++ ")"
  | none => "None"

/-- A record with named fields; `more` says that not all of them are shown. -/
def record (name : String) (fields : List (String × String)) (more : Bool) : String :=
  let shown := fields.map fun f => f.1 ++ ": " ++ f.2
  name ++ " \x7b " ++ ", ".intercalate (if more then shown ++ [".."] else shown) ++ " \x7d"

end Text

namespace Duration

/-- A count of units with the rest behind a point, without zeros at the end; `places` digits make
up one unit. -/
def decimalText (whole rest places : Nat) : String :=
  let digits := Decimal.padLeft places (Decimal.digitsOf rest)
  let digits := (digits.reverse.dropWhile (· = '0')).reverse
  if rest = 0 then Decimal.natText whole
  else Decimal.natText whole ++ "." ++ String.ofList digits

/-- **A span in the largest unit that it fills**: seconds, milli-, micro- or nanoseconds. -/
def text (d : Duration) : String :=
  if nanosPerSecond ≤ d.nanos then decimalText d.seconds d.subsecond 9 ++ "s"
  else if 1000000 ≤ d.nanos then
    decimalText (d.nanos / 1000000) (d.nanos % 1000000) 6 ++ "ms"
  else if 1000 ≤ d.nanos then decimalText (d.nanos / 1000) (d.nanos % 1000) 3 ++ "µs"
  else Decimal.natText d.nanos ++ "ns"

end Duration

end Instinct
