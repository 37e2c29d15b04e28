import Instinct.Json
import Instinct.NameMap

/-! # Reading records out of documents

Values of fixed types are read from JSON and from YAML by the same rules. What differs is how a
document stands for a number, a text or a list.

* **`Source D`** — how documents of type `D` are read.
* **`Shape`** — the fields of a record, and what is allowed to be missing or to be there besides.
* **`Source.record`** — the documents of a record's fields.
* **`Json.source`** — JSON as a source. -/

namespace Instinct

/-- **How documents of type `D` are read.** Each reading gives nothing where a document is of
another form. -/
structure Source (D : Type) where
  bool? : D → Option Bool
  /-- An integer that is not negative. -/
  natural? : D → Option Nat
  integer? : D → Option Int
  single? : D → Option Float32
  text? : D → Option String
  /-- The value that may be missing; `some none` says that it is. -/
  present? : D → Option (Option D)
  list? : D → Option (List D)
  /-- The entries of a map, in the order in which they are written. -/
  entries? : D → Option (List (String × D))
  /-- Whether a record may be written as the list of its fields. -/
  positional : Bool
  /-- The name of one of several alternatives. -/
  word? : D → Option String

/-- **The fields of a record**, in the order in which they are written. -/
structure Shape where
  fields : List String
  /-- Whether other fields are refused; otherwise they are passed over. -/
  strict : Bool := false
  /-- Whether fields may be missing at the end of a record written as a list. -/
  mayEndEarly : Bool := false

namespace Source

variable {D α : Type}

/-- The documents under a name. -/
def under (entries : List (String × D)) (name : String) : List D :=
  (entries.filter (·.1 = name)).map (·.2)

/-- The document of each field of a record written with names. No field may be written twice. -/
def namedFields (shape : Shape) (entries : List (String × D)) : Option (List (Option D)) :=
  if shape.strict && entries.any (fun e => !shape.fields.contains e.1) then none
  else
    shape.fields.mapM fun name =>
      match under entries name with
      | [] => some none
      | [d] => some (some d)
      | _ => none

/-- The document of each field of a record written as a list. -/
def listedFields (shape : Shape) (items : List D) : Option (List (Option D)) :=
  let missing := shape.fields.length - items.length
  if shape.fields.length < items.length || (missing ≠ 0 && !shape.mayEndEarly) then none
  else some (items.map some ++ List.replicate missing none)

/-- **The document of each field of a record**, in order. -/
def record (src : Source D) (shape : Shape) (d : D) : Option (List (Option D)) :=
  match src.entries? d with
  | some entries => namedFields shape entries
  | none =>
    if src.positional then
      match src.list? d with
      | some items => listedFields shape items
      | none => none
    else none

/-- A value that may be missing: the document that stands for none counts as missing. -/
def optional (src : Source D) (read : D → Option α) (d : D) : Option (Option α) :=
  match src.present? d with
  | some (some d) => (read d).map some
  | some none => some none
  | none => none

/-- A field that has to be there. -/
def required (read : D → Option α) (field : Option D) : Option α := field.bind read

/-- A field with a value to fall back on if it is missing. -/
def defaulted (fallback : α) (read : D → Option α) (field : Option D) : Option α :=
  match field with
  | some d => read d
  | none => some fallback

/-- A word of 64 bits. -/
def word64 (src : Source D) (d : D) : Option UInt64 :=
  (src.natural? d).bind fun n => if n < UInt64.size then some (UInt64.ofNat n) else none

/-- A word of 32 bits. -/
def word32 (src : Source D) (d : D) : Option UInt32 :=
  (src.natural? d).bind fun n => if n < UInt32.size then some (UInt32.ofNat n) else none

/-- A signed integer of 32 bits. -/
def int32 (src : Source D) (d : D) : Option Int32 :=
  (src.integer? d).bind fun n =>
    if Int32.minValue.toInt ≤ n ∧ n ≤ Int32.maxValue.toInt then some (Int32.ofInt n) else none

/-- A list of values. -/
def list (src : Source D) (read : D → Option α) (d : D) : Option (List α) :=
  (src.list? d).bind fun ds => ds.mapM read

/-- A map from names. Of several values under one name the last counts. -/
def nameMap (src : Source D) (read : D → Option α) (d : D) : Option (NameMap α) :=
  (src.entries? d).bind fun es =>
    (es.mapM fun e => (read e.2).map fun v => (e.1, v)).map NameMap.ofList

end Source

namespace Json

/-- A number in single precision. Integers are rounded once. -/
def toSingle? : Json → Option Float32
  | int n =>
    if 0 ≤ n then some (UInt64.ofNat n.toNat).toFloat32 else some (Int64.ofInt n).toFloat32
  | double x => if x.isFinite then some x.toFloat32 else none
  | _ => none

/-- **JSON as a source.** -/
def source : Source Json where
  bool? | bool b => some b | _ => none
  natural? | int n => if 0 ≤ n then some n.toNat else none | _ => none
  integer? | int n => some n | _ => none
  single? := toSingle?
  text? | text s => some s | _ => none
  present? | null => some none | v => some (some v)
  list? | array items => some items | _ => none
  entries? | object fields => some fields | _ => none
  positional := true
  word?
    | text s => some s
    | object [(s, null)] => some s
    | _ => none

end Json

end Instinct
