import Instinct.Json
import Instinct.Decimal.Layout

/-! # Writing JSON

* **`Json.compact`** — a value without any blanks.
* **`Json.pretty`** — a value over several lines, two blanks for each level. -/

namespace Instinct.Json

/-- The hexadecimal digit of a number below sixteen, in lower case. -/
def hexDigit (d : Nat) : Char := if d < 10 then Char.ofNat (48 + d) else Char.ofNat (87 + d)

/-- A character inside a text. Quotes, backslashes and control characters are escaped, the commonest
of them by a letter. -/
def escapeChar (c : Char) : List Char :=
  if c = '"' then ['\\', '"']
  else if c = '\\' then ['\\', '\\']
  else if c = '\n' then ['\\', 'n']
  else if c = '\r' then ['\\', 'r']
  else if c = '\t' then ['\\', 't']
  else if c = Char.ofNat 8 then ['\\', 'b']
  else if c = Char.ofNat 12 then ['\\', 'f']
  else if c.toNat < 32 then
    ['\\', 'u', '0', '0', hexDigit (c.toNat / 16), hexDigit (c.toNat % 16)]
  else [c]

/-- **A text in quotes.** -/
def quote (s : String) : List Char := '"' :: (s.toList.flatMap escapeChar ++ ['"'])

/-- A number that data cannot hold is written as null. -/
def floatChars (finite : Bool) (text : String) : List Char :=
  if finite then text.toList else ['n', 'u', 'l', 'l']

/-- A value that is no list and no object. -/
def scalarChars : Json → List Char
  | null => ['n', 'u', 'l', 'l']
  | bool true => ['t', 'r', 'u', 'e']
  | bool false => ['f', 'a', 'l', 's', 'e']
  | int n => Decimal.intDigits n
  | double x => floatChars x.isFinite (Decimal.written64 x)
  | single x => floatChars x.isFinite (Decimal.written32 x)
  | text s => quote s
  | array _ => ['[', ']']
  | object _ => ['{', '}']
  | garbled => ['n', 'u', 'l', 'l']

mutual

/-- The characters of a value without any blanks. -/
def chars : Json → List Char
  | array [] => ['[', ']']
  | array (v :: vs) => '[' :: (chars v ++ itemsTail vs)
  | object [] => ['{', '}']
  | object ((k, v) :: fs) => '{' :: (quote k ++ ':' :: (chars v ++ fieldsTail fs))
  | v => scalarChars v

/-- The items of a list behind the first one, and its end. -/
def itemsTail : List Json → List Char
  | [] => [']']
  | v :: vs => ',' :: (chars v ++ itemsTail vs)

/-- The fields of an object behind the first one, and its end. -/
def fieldsTail : List (String × Json) → List Char
  | [] => ['}']
  | (k, v) :: fs => ',' :: (quote k ++ ':' :: (chars v ++ fieldsTail fs))

end

/-- **A value without any blanks.** -/
def compact (v : Json) : String := String.ofList v.chars

/-- A line break and the blanks of a level. -/
def newline (level : Nat) : List Char := '\n' :: List.replicate (2 * level) ' '

mutual

/-- The characters of a value over several lines, at a level. -/
def prettyChars (level : Nat) : Json → List Char
  | array [] => ['[', ']']
  | array (v :: vs) =>
    '[' :: (newline (level + 1) ++ prettyChars (level + 1) v ++ prettyItems level vs)
  | object [] => ['{', '}']
  | object ((k, v) :: fs) =>
    '{' :: (newline (level + 1) ++ quote k ++ ':' :: ' ' ::
      (prettyChars (level + 1) v ++ prettyFields level fs))
  | v => scalarChars v

/-- The items of a list behind the first one, and its end on a line of its own. -/
def prettyItems (level : Nat) : List Json → List Char
  | [] => newline level ++ [']']
  | v :: vs =>
    ',' :: (newline (level + 1) ++ prettyChars (level + 1) v ++ prettyItems level vs)

/-- The fields of an object behind the first one, and its end on a line of its own. -/
def prettyFields (level : Nat) : List (String × Json) → List Char
  | [] => newline level ++ ['}']
  | (k, v) :: fs =>
    ',' :: (newline (level + 1) ++ quote k ++ ':' :: ' ' ::
      (prettyChars (level + 1) v ++ prettyFields level fs))

end

/-- **A value over several lines.** -/
def pretty (v : Json) : String := String.ofList (prettyChars 0 v)

end Instinct.Json
