import Instinct.Record.Form
import Instinct.Collaborators
import Instinct.Frame
import Instinct.Mind
import Instinct.Pattern.Tuning

/-! # Records read from documents

The fields of every record that can be written down, and how each record is read from a document of
any form.

* **`Duration.shape`**, **`Vec2.shape`**, … — the names of the fields, in order.
* **`Source.duration`**, **`Source.vec2`**, … — the record that a document stands for.
* **`Readable`** — the types whose values can be read, with the form of their documents.

A record whose fields all have a value to fall back on may be cut short when it is written as a
list. -/

namespace Instinct

/-! ## Fields -/

/-- A span is written as whole seconds and the nanoseconds beyond them. -/
def Duration.shape : Shape := { fields := ["secs", "nanos"], strict := true }

/-- The fields of a point. -/
def Vec2.shape : Shape := { fields := ["x", "y"] }

/-- The fields of an agent's numbers. -/
def Stats.shape : Shape := { fields := ["health", "max_health", "speed", "damage"] }

/-- The fields of an effect. -/
def Effect.shape : Shape := { fields := ["kind", "position", "duration"] }

/-- The fields of a frame. -/
def Frame.shape : Shape := { fields := ["tick", "now", "dt", "seed"] }

/-- The fields of a trace event. -/
def TraceEvent.shape : Shape := { fields := ["tick", "tag", "label", "a", "b"] }

/-- The fields of a trace log. -/
def TraceLog.shape : Shape := { fields := ["events"] }

/-- The fields of a pace. -/
def Pace.shape : Shape where
  fields := ["think_every_ticks", "think_offset_ticks", "seed", "warn_on_failure"]
  mayEndEarly := true

/-- The fields of an override. -/
def Override.shape : Shape where
  fields := ["priority", "cooldown_ms"]
  strict := true
  mayEndEarly := true

/-- The fields of a tuning. -/
def Tuning.shape : Shape := { fields := ["archetypes"], mayEndEarly := true }

namespace Source

variable {D : Type} (src : Source D)

/-! ## Records -/

/-- The span that a document stands for. Nanoseconds may carry into the seconds. -/
def duration (d : D) : Option Duration :=
  match src.record Duration.shape d with
  | some [secs, nanos] => do
    let secs ← required src.word64 secs
    let nanos ← required src.word32 nanos
    Duration.ofParts? secs nanos
  | _ => none

/-- The point that a document stands for. -/
def vec2 (d : D) : Option Vec2 :=
  match src.record Vec2.shape d with
  | some [x, y] => do
    let x ← required src.single? x
    let y ← required src.single? y
    return ⟨x, y⟩
  | _ => none

/-- The numbers of an agent that a document stands for. -/
def stats (d : D) : Option Stats :=
  match src.record Stats.shape d with
  | some [health, maxHealth, speed, damage] => do
    let health ← required src.single? health
    let maxHealth ← required src.single? maxHealth
    let speed ← required src.single? speed
    let damage ← required src.single? damage
    return { health, maxHealth, speed, damage }
  | _ => none

/-- The effect that a document stands for. -/
def effect (d : D) : Option Effect :=
  match src.record Effect.shape d with
  | some [kind, position, duration] => do
    let kind ← required src.text? kind
    let position ← required src.vec2 position
    let duration ← required src.duration duration
    return { kind, position, duration }
  | _ => none

/-- The frame that a document stands for. -/
def frame (d : D) : Option Frame :=
  match src.record Frame.shape d with
  | some [tick, now, dt, seed] => do
    let tick ← required src.word64 tick
    let now ← required src.duration now
    let dt ← required src.duration dt
    let seed ← required src.word64 seed
    return { tick, now, dt, seed }
  | _ => none

/-- The trace event that a document stands for. Written with names, it need not have a label. -/
def traceEvent (d : D) : Option TraceEvent :=
  match src.record TraceEvent.shape d with
  | some [tick, tag, label, a, b] => do
    let tick ← required src.word64 tick
    let tag ← required src.text? tag
    let label ← defaulted none (src.optional src.text?) label
    let a ← required src.word64 a
    let b ← required src.word64 b
    return { tick, tag, label, a, b }
  | _ => none

/-- The trace log that a document stands for. -/
def traceLog (d : D) : Option TraceLog :=
  match src.record TraceLog.shape d with
  | some [events] => (required (src.list src.traceEvent) events).map fun es => ⟨es.toArray⟩
  | _ => none

/-- The level that a document names. -/
def level (d : D) : Option Level := (src.word? d).bind Level.ofWord?

/-- The pace that a document stands for. -/
def pace (d : D) : Option Pace :=
  let standard : Pace := {}
  match src.record Pace.shape d with
  | some [every, offset, seed, warnOnFailure] => do
    let every ← defaulted standard.every src.word32 every
    let offset ← defaulted standard.offset src.word32 offset
    let seed ← defaulted standard.seed src.word64 seed
    let warnOnFailure ← defaulted standard.warnOnFailure src.bool? warnOnFailure
    return { every, offset, seed, warnOnFailure }
  | _ => none

/-- The override that a document stands for. -/
def override (d : D) : Option Override :=
  match src.record Override.shape d with
  | some [priority, cooldownMs] => do
    let priority ← defaulted none (src.optional src.int32) priority
    let cooldownMs ← defaulted none (src.optional src.word64) cooldownMs
    return { priority, cooldownMs }
  | _ => none

/-- The tuning that a document stands for. -/
def tuning (d : D) : Option Tuning :=
  match src.record Tuning.shape d with
  | some [archetypes] =>
    (defaulted .empty (src.nameMap (src.nameMap src.override)) archetypes).map Tuning.mk
  | _ => none

end Source

/-! ## Types that can be read -/

/-- **A type whose values can be read from documents.** -/
class Readable (α : Type) where
  /-- What the reading looks at. -/
  form : Form
  /-- The value that a document stands for. -/
  read {D : Type} (src : Source D) : D → Option α

instance : Readable Duration := ⟨Duration.shape.form, Source.duration⟩

instance : Readable Vec2 := ⟨Vec2.shape.form, Source.vec2⟩

instance : Readable Stats := ⟨Stats.shape.form, Source.stats⟩

instance : Readable Effect where
  form := Effect.shape.form
    [("position", Readable.form Vec2), ("duration", Readable.form Duration)]
  read := Source.effect

instance : Readable Frame where
  form := Frame.shape.form [("now", Readable.form Duration), ("dt", Readable.form Duration)]
  read := Source.frame

instance : Readable TraceEvent := ⟨TraceEvent.shape.form, Source.traceEvent⟩

instance : Readable TraceLog where
  form := TraceLog.shape.form [("events", .list (Readable.form TraceEvent))]
  read := Source.traceLog

instance : Readable Level := ⟨.single, Source.level⟩

instance : Readable Pace := ⟨Pace.shape.form, Source.pace⟩

instance : Readable Override := ⟨Override.shape.form, Source.override⟩

instance : Readable Tuning where
  form := Tuning.shape.form [("archetypes", .map (.map (Readable.form Override)))]
  read := Source.tuning

end Instinct
