/-! # JSON values

* **`Json`** — null, booleans, numbers, text, lists, and objects with their fields in order.
* A text that holds half of a surrogate pair is no text, but it can be passed over: it counts as
  `garbled`, and so does an object with such a name in it.
* Numbers come in three kinds: integers, double-precision numbers and single-precision numbers. The
  last are only ever written: a number that is read is an integer if it is spelled as one that fits
  into 64 bits, and has double precision otherwise. -/

namespace Instinct

/-- **A JSON value.** -/
inductive Json where
  | null
  | bool (b : Bool)
  | int (n : Int)
  | double (x : Float)
  | single (x : Float32)
  | text (s : String)
  | array (items : List Json)
  | object (fields : List (String × Json))
  /-- Something that can be passed over but not read. -/
  | garbled

namespace Json

instance : Inhabited Json := ⟨null⟩

/-- A 64-bit word as a number. -/
def word (n : UInt64) : Json := int n.toNat

/-- A single-precision number in a value that keeps double precision; `null` if it is not finite. -/
def widened (x : Float32) : Json := if x.isFinite then double x.toFloat else null

/-- The first field of a name. -/
def field? (name : String) : Json → Option Json
  | object fields => (fields.find? (·.1 = name)).map (·.2)
  | _ => none

end Json

end Instinct
