import Instinct.Record.Source

/-! # What a reading looks at

A reading does not look at all of a document: fields that a record does not have are passed over. A
form says where the reading goes, so that the parts it passes over can be left as they are.

* **`Form`** — the parts of a document that are looked at.
* **`Shape.form`** — the form of a record. -/

namespace Instinct

/-- **The parts of a document that are looked at.** -/
inductive Form where
  /-- A part that is passed over. -/
  | ignored
  /-- A part that has no parts of its own. -/
  | single
  | list (item : Form)
  /-- A map with any names. -/
  | map (value : Form)
  /-- A record, by the names of its fields. -/
  | record (field : String → Form)

/-- **The form of a record.** Only the fields that are listed have parts of their own. -/
def Shape.form (shape : Shape) (nested : List (String × Form) := []) : Form :=
  .record fun name =>
    match nested.find? (·.1 = name) with
    | some f => f.2
    | none => if shape.fields.contains name then .single else .ignored

end Instinct
