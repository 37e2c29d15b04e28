/-! # Natural numbers as decimal digits

* **`digitsOf n`** — the digits of a number, most significant first, without leading zeros.
* **`ofDigits`** — the number that a list of digits stands for.
* **`zeros`**, **`padLeft`** — runs of zeros and digits brought to a width. -/

namespace Instinct.Decimal

/-- The character of a digit below ten. -/
def digitChar (d : Nat) : Char := Char.ofNat (48 + d)

/-- The value of a digit character. -/
def digitValue (c : Char) : Nat := c.toNat - 48

/-- Whether a character is one of the ten digits of ASCII. -/
def isDigit (c : Char) : Bool := 48 ≤ c.toNat && c.toNat ≤ 57

/-- **The digits of a number**, most significant first. -/
def digitsOf (n : Nat) : List Char :=
  if n < 10 then [digitChar n] else digitsOf (n / 10) ++ [digitChar (n % 10)]
termination_by n

/-- **The number that digits stand for.** -/
def ofDigits (cs : List Char) : Nat := cs.foldl (fun n c => 10 * n + digitValue c) 0

/-- The digits of an integer behind its sign; only negative numbers have one. -/
def intDigits (n : Int) : List Char :=
  if n < 0 then '-' :: digitsOf n.natAbs else digitsOf n.natAbs

/-- A run of zeros. -/
def zeros (n : Nat) : List Char := List.replicate n '0'

/-- Digits brought to a width by zeros in front. -/
def padLeft (width : Nat) (cs : List Char) : List Char := zeros (width - cs.length) ++ cs

/-- A number in decimal. -/
def natText (n : Nat) : String := String.ofList (digitsOf n)

/-- An integer in decimal. -/
def intText (n : Int) : String := String.ofList (intDigits n)

end Instinct.Decimal
