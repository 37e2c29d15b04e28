import Instinct.Record.Reading
import Instinct.Json.Writer
import Instinct.Yaml.Writer

/-! # Records written down

Every record is written as a JSON object with its fields in order. A missing label is written as
null; a missing field of an override is left out. A tuning is written as YAML too.

* **`Duration.json`**, **`Vec2.json`**, … — the document of a record.
* **`Tuning.yaml`** — the YAML text of a tuning. -/

namespace Instinct

/-- The document of a record: the names of its fields with their documents. -/
def Shape.object (shape : Shape) (values : List Json) : Json := .object (shape.fields.zip values)

/-- The object of a record without the fields that have no document. -/
def Shape.objectOf (shape : Shape) (values : List (Option Json)) : Json :=
  .object ((shape.fields.zip values).filterMap fun f => f.2.map fun v => (f.1, v))

/-- A map from names as an object. -/
def NameMap.json {α : Type} (write : α → Json) (m : NameMap α) : Json :=
  .object (m.entries.map fun e => (e.1, write e.2))

/-- A text that may be missing. -/
def Json.textOrNull : Option String → Json
  | some s => .text s
  | none => .null

/-- A span as an object. -/
def Duration.json (d : Duration) : Json := shape.object [.int d.seconds, .int d.subsecond]

/-- A point as an object. -/
def Vec2.json (v : Vec2) : Json := shape.object [.single v.x, .single v.y]

/-- An agent's numbers as an object. -/
def Stats.json (s : Stats) : Json :=
  shape.object [.single s.health, .single s.maxHealth, .single s.speed, .single s.damage]

/-- An effect as an object. -/
def Effect.json (e : Effect) : Json :=
  shape.object [.text e.kind, e.position.json, e.duration.json]

/-- A frame as an object. -/
def Frame.json (f : Frame) : Json :=
  shape.object [.word f.tick, f.now.json, f.dt.json, .word f.seed]

/-- A trace event as an object. -/
def TraceEvent.json (e : TraceEvent) : Json :=
  shape.object [.word e.tick, .text e.tag, .textOrNull e.label, .word e.a, .word e.b]

/-- A trace log as an object. -/
def TraceLog.json (l : TraceLog) : Json :=
  shape.object [.array (l.events.toList.map TraceEvent.json)]

/-- The name of a level. -/
def Level.json (l : Level) : Json := .text l.word

/-- A pace as an object. -/
def Pace.json (p : Pace) : Json :=
  shape.object [.int p.every.toNat, .int p.offset.toNat, .word p.seed, .bool p.warnOnFailure]

/-- An override as an object with the fields that are present. -/
def Override.json (o : Override) : Json :=
  shape.objectOf [o.priority.map fun n => .int n.toInt, o.cooldownMs.map .word]

/-- A tuning as an object. -/
def Tuning.json (t : Tuning) : Json :=
  shape.object [t.archetypes.json (NameMap.json Override.json)]

/-- The present fields of an override in YAML. -/
def Override.block (o : Override) : Yaml.Block :=
  let priority := o.priority.map fun n => Yaml.Block.number n.toInt
  let cooldownMs := o.cooldownMs.map fun n => Yaml.Block.number n.toNat
  .mapping ((shape.fields.zip [priority, cooldownMs]).filterMap fun f => f.2.map fun v => (f.1, v))

/-- A map from names in YAML. -/
def NameMap.block {α : Type} (write : α → Yaml.Block) (m : NameMap α) : Yaml.Block :=
  .mapping (m.entries.map fun e => (e.1, write e.2))

/-- **The YAML text of a tuning.** -/
def Tuning.yaml (t : Tuning) : String :=
  (Yaml.Block.mapping [("archetypes", t.archetypes.block (NameMap.block Override.block))]).text

end Instinct
