import Instinct.Record.Form
import Instinct.Yaml

/-! # YAML values without aliases

A reading follows the aliases that it meets, those of names included, and no others: so a value may
hold an alias of itself in a part that is passed over. How often aliases may be followed is bounded
by the length of the document, which keeps a short text from standing for a huge value.

* **`Yaml.length`** — the number of marks that a value is written with.
* **`Document.follow`** — a value that is not an alias.
* **`Document.unfold`** — a value whose parts of a form are not aliases.
* **`Document.expand?`** — what a document stands for to a reading of a form. -/

namespace Instinct.Yaml

mutual

/-- **The number of marks that a value is written with**: one for a scalar or an alias, two for the
ends of a sequence or a mapping. -/
def length : Yaml → Nat
  | .void | .scalar _ _ _ | .alias _ => 1
  | .sequence items => lengthOfItems items + 2
  | .mapping entries => lengthOfEntries entries + 2

/-- The number of marks of several values. -/
def lengthOfItems : List Yaml → Nat
  | [] => 0
  | v :: vs => length v + lengthOfItems vs

/-- The number of marks of several entries. -/
def lengthOfEntries : List (Yaml × Yaml) → Nat
  | [] => 0
  | e :: es => lengthOfEntry e + lengthOfEntries es

/-- The number of marks of a name and its value. -/
def lengthOfEntry : Yaml × Yaml → Nat
  | (name, value) => length name + length value

end

namespace Document

/-- **A value that is not an alias.** The state counts how many more aliases can be followed. -/
def follow (d : Document) : Yaml → StateT Nat Option Yaml
  | .alias number => fun n =>
    if n = 0 then none else (d.target? number).map fun v => (v, n - 1)
  | v => pure v

/-- Once the count is used up no alias is followed. -/
@[simp] theorem follow_alias_zero (d : Document) (number : Nat) :
    (d.follow (.alias number)).run 0 = none := rfl

/-- The name that a value spells. Only a scalar is a name. -/
def nameOf : Yaml → String
  | scalar name _ _ => name
  | _ => ""

/-- **A value whose parts of a form are not aliases.** -/
def unfold (d : Document) : Form → Yaml → StateT Nat Option Yaml
  | .ignored, v => pure v
  | .single, v => d.follow v
  | .list item, v => do
    match ← d.follow v with
    | sequence items => return sequence (← items.mapM (d.unfold item))
    | v => return v
  | .map value, v => do
    match ← d.follow v with
    | mapping entries =>
      return mapping (← entries.mapM fun e => return (← d.follow e.1, ← d.unfold value e.2))
    | v => return v
  | .record field, v => do
    match ← d.follow v with
    | mapping entries =>
      return mapping (← entries.mapM fun e => do
        let name ← d.follow e.1
        return (name, ← d.unfold (field (nameOf name)) e.2))
    | v => return v

/-- A part that is passed over stays as it is written. -/
@[simp] theorem unfold_ignored (d : Document) (v : Yaml) : d.unfold .ignored v = pure v := rfl

/-- A part that has no parts of its own is only followed. -/
@[simp] theorem unfold_single (d : Document) (v : Yaml) : d.unfold .single v = d.follow v := rfl

/-- **What a document stands for to a reading of a form.** Aliases can be followed a hundred times
for each mark of the document. -/
def expand? (d : Document) (form : Form) : Option Yaml :=
  ((d.unfold form d.root).run (100 * d.root.length)).map (·.1)

end Document

end Instinct.Yaml
