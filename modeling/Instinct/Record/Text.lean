import Instinct.Json.Reader
import Instinct.Record.Reading
import Instinct.Yaml.Alias
import Instinct.Yaml.Source

/-! # Records out of texts

* **`Json.read?`** — the value that a JSON text stands for.
* **`Yaml.read?`** — the value that a YAML text stands for. -/

namespace Instinct

/-- **The value that a JSON text stands for.** -/
def Json.read? {α : Type} [Readable α] (text : String) : Option α :=
  (Json.parse? text).bind (Readable.read Json.source)

/-- **The value that a YAML text stands for.** -/
def Yaml.read? {α : Type} [Readable α] (text : String) : Option α := do
  let document ← Yaml.parse? text
  let value ← document.expand? (Readable.form α)
  Readable.read Yaml.source value

end Instinct
