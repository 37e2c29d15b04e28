import Instinct.Json.Writer
import Instinct.NameMap
import Instinct.Text.Quoted

/-! # Text that leaves nothing behind the shown digits

Numbers are written by their bits, so that two that differ are written differently.

* **`Text.bits`** — a number by its bits.
* **`Text.exactJson`** — a JSON text with such numbers.
* **`Json.sorted`** — a JSON value with its fields in order. -/

namespace Instinct

namespace Text

/-- A number in hexadecimal, filled up with zeros to a width. -/
def hex (width n : Nat) : String := String.ofList (Decimal.padLeft width (hexDigits n))

/-- The bits of a single-precision number in hexadecimal. -/
def bits (x : Float32) : String := if x.isNaN then "nan" else hex 8 x.toBits.toNat

/-- Words with a blank between each two. -/
def words (ws : List String) : String := " ".intercalate ws

mutual

/-- The parts of a JSON text in which numbers that are no integers are written by their bits. -/
def exactJson : Json → List String
  | .double x => ["f64:", hex 16 x.toBits.toNat]
  | .single x => ["f64:", hex 16 x.toFloat.toBits.toNat]
  | .array items => "[" :: (exactItems items ++ ["]"])
  | .object fields => "\x7b" :: (exactFields fields ++ ["\x7d"])
  | j => [j.compact]

/-- The items of a list with commas between them. -/
def exactItems : List Json → List String
  | [] => []
  | [v] => exactJson v
  | v :: vs => exactJson v ++ "," :: exactItems vs

/-- The fields of an object with commas between them. -/
def exactFields : List (String × Json) → List String
  | [] => []
  | [(k, v)] => (Json.text k).compact :: ":" :: exactJson v
  | (k, v) :: fs => (Json.text k).compact :: ":" :: (exactJson v ++ "," :: exactFields fs)

end

end Text

mutual

/-- A JSON value with the fields of every object in the order of their names; of several under one
name the last stays. -/
def Json.sorted : Json → Json
  | .array items => .array (sortedItems items)
  | .object fields => .object (NameMap.ofList (sortedFields fields)).entries
  | j => j

/-- The items of a list, each sorted. -/
def Json.sortedItems : List Json → List Json
  | [] => []
  | v :: vs => v.sorted :: sortedItems vs

/-- The fields of an object, each sorted. -/
def Json.sortedFields : List (String × Json) → List (String × Json)
  | [] => []
  | (k, v) :: fs => (k, v.sorted) :: sortedFields fs

end

end Instinct
