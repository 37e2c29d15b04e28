/-! # YAML tags

A tag is spelled with characters of ASCII, and every octet may be given by its two hexadecimal
digits. Its octets need not be a text: they only have to come in groups whose first octet says how
many follow. An octet of zero ends a tag.

* **`Octets.ofSpelling?`** — the octets that a part of a tag spells.
* **`Tag`** — a tag, as the octets of its parts.
* **`Tag.alternative?`** — the name of an alternative that a tag gives. -/

namespace Instinct.Yaml

/-- The value of a hexadecimal digit. -/
def hexValue (c : Char) : Option Nat :=
  let n := c.toNat
  if 48 ≤ n ∧ n ≤ 57 then some (n - 48)
  else if 97 ≤ n ∧ n ≤ 102 then some (n - 87)
  else if 65 ≤ n ∧ n ≤ 70 then some (n - 55)
  else none

/-- Octets in a row. -/
abbrev Octets := List UInt8

namespace Octets

/-- The octets of a text in UTF-8. -/
def ofText (s : String) : Octets := s.toUTF8.toList

/-- The text that octets stand for in UTF-8. -/
def text? (octets : Octets) : Option String := String.fromUTF8? ⟨octets.toArray⟩

/-- The octets in front of the first zero. -/
def untilZero (octets : Octets) : Octets := octets.takeWhile (· ≠ 0)

/-- How many octets follow the first one of a group. -/
def followers? (octet : Nat) : Option Nat :=
  if octet < 128 then some 0
  else if octet / 32 = 6 then some 1
  else if octet / 16 = 14 then some 2
  else if octet / 8 = 30 then some 3
  else none

/-- The octets that a spelling stands for, with `due` octets missing in the group that was begun. A
group has to be completed by octets that can follow. -/
def spelled? : (due : Nat) → List Char → Option Octets
  | due, '%' :: a :: b :: rest => do
    let a ← hexValue a
    let b ← hexValue b
    let octet := 16 * a + b
    let due ←
      match due with
      | 0 => followers? octet
      | due + 1 => if octet / 64 = 2 then some due else none
    return UInt8.ofNat octet :: (← spelled? due rest)
  | 0, c :: rest => if c = '%' then none else (spelled? 0 rest).map (UInt8.ofNat c.toNat :: ·)
  | 0, [] => some []
  | _ + 1, _ => none

/-- **The octets that a part of a tag spells**, up to the first zero. Its characters are ASCII. -/
def ofSpelling? (cs : List Char) : Option Octets := (spelled? 0 cs).map untilZero

end Octets

/-- **A tag**, as the octets of its parts. -/
structure Tag where
  octets : Octets
deriving DecidableEq, Inhabited

namespace Tag

/-- What the tags of the common types start with. -/
def coreStem : Octets := Octets.ofText "tag:yaml.org,2002:"

/-- The tag of a common type. -/
def core (type : String) : Tag := ⟨coreStem ++ Octets.ofText type⟩

/-- **The name of an alternative that a tag gives**: the text behind its exclamation mark. A tag
without the mark, or one whose octets are no text, gives none. -/
def alternative? (t : Tag) : Option String :=
  match t.octets with
  | mark :: name => if mark = 33 then Octets.text? name else none
  | [] => none

end Tag

end Instinct.Yaml
