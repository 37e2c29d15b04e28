import Instinct.Mind
import Instinct.Rehearsal.Script

/-! # Views: what can be seen of a rehearsal

Every value has a JSON form in which nothing is rounded: floating-point numbers are their bits,
64-bit words and spans of time are decimal digits.

* **`Visible`** — the types whose values can be looked at.
* **`Node.memoryView`** — what a node remembers.
* **`Rehearsal.agentView`** — an actor together with its scene. -/

namespace Instinct

/-- **The types whose values can be looked at.** -/
class Visible (α : Type) where
  view : α → Json

export Visible (view)

/-! ## Values -/

instance : Visible Json := ⟨id⟩

instance : Visible Bool := ⟨.bool⟩

instance : Visible String := ⟨.text⟩

instance : Visible Nat := ⟨fun n => .int n⟩

instance : Visible UInt8 := ⟨fun n => .int n.toNat⟩

instance : Visible UInt32 := ⟨fun n => .int n.toNat⟩

instance : Visible Int32 := ⟨fun n => .int n.toInt⟩

instance : Visible UInt64 := ⟨fun n => .text (Decimal.natText n.toNat)⟩

instance : Visible Int64 := ⟨fun n => .text (Decimal.intText n.toInt)⟩

instance : Visible Float32 := ⟨fun x => .text (Text.bits x)⟩

instance : Visible Duration := ⟨fun d => .text (Decimal.natText d.nanos)⟩

instance : Visible Vec2 := ⟨fun v => .array [view v.x, view v.y]⟩

instance : Visible Status := ⟨fun s => .text (String.ofList [s.letter])⟩

/-- A value that may be missing; null if it is. -/
instance {α : Type} [Visible α] : Visible (Option α) := ⟨fun a => a.elim .null view⟩

instance {α : Type} [Visible α] : Visible (List α) := ⟨fun as => .array (as.map view)⟩

instance : Visible Frame := ⟨fun f => .array [view f.tick, view f.now, view f.dt, view f.seed]⟩

instance : Visible TraceEvent :=
  ⟨fun e => .array [view e.tick, view e.tag, view e.label, view e.a, view e.b]⟩

/-- A value with the name of its type; of a log only the number of events is shown, of a handle
nothing. -/
instance : Visible Value where
  view
    | .bool b => .object [("bool", view b)]
    | .int n => .object [("i64", view n)]
    | .byte n => .object [("u8", view n)]
    | .word n => .object [("u32", view n)]
    | .float x => .object [("f32", view x)]
    | .text s => .object [("str", view s)]
    | .duration d => .object [("dur", view d)]
    | .vec v => .object [("vec2", view v)]
    | .log l => .object [("trace", view l.events.size)]
    | .agent _ | .target _ | .scene _ | .stream _ => .text "opaque"

/-- The slots with what they hold. -/
instance : Visible Blackboard :=
  ⟨fun b => .array (b.slots.entries.map fun e => .array [view e.1, view e.2])⟩

instance : Visible Pace :=
  ⟨fun p => .array [view p.every, view p.offset, view p.seed, view p.warnOnFailure]⟩

instance : Visible Override :=
  ⟨fun o => .array [view o.priority, view o.cooldownMs, view o.cooldown]⟩

/-! ## Errors and notices -/

/-- A kind of failure with more about it. -/
def Json.failureWith (kind : String) (more : List (String × Json)) : Json :=
  .object (("error", .text kind) :: more)

/-- A kind of failure. -/
def Json.failure (kind : String) : Json := failureWith kind []

/-- A kind of failure in words. -/
def Json.failureText (kind message : String) : Json :=
  failureWith kind [("message", .text message)]

/-- The kind of a build error in a word. -/
def BuildError.kind : BuildError → String
  | noRoot => "NoRoot"
  | multipleRoots _ => "MultipleRoots"
  | decoratorOccupied _ => "DecoratorOccupied"
  | notAParent _ => "NotAParent"
  | unbalancedEnd => "UnbalancedEnd"
  | weightCountMismatch _ _ _ => "WeightCountMismatch"
  | invalidWeight _ _ _ => "InvalidWeight"

instance : Visible BuildError := ⟨fun e => .failureText e.kind e.message⟩

/-- The kind of a pattern error in a word. -/
def PatternError.kind : PatternError → String
  | unknownArchetype _ => "UnknownArchetype"
  | unknownPattern _ _ => "UnknownPattern"
  | duplicatePattern _ _ => "DuplicatePattern"

instance : Visible PatternError := ⟨fun e => .failureText e.kind e.message⟩

/-- A notice as an object of texts. -/
instance : Visible Notice where
  view
    | .rootFailed root tick => .object [("level", .text "WARN"),
        ("message", .text "tree root failed"), ("root", view root), ("tick", view tick)]
    | .patternLost e => .object [("level", .text "WARN"),
        ("message", .text "attack pattern vanished mid-execution"), ("error", view e.message)]
    | .message level text tick => .object [("level", .text level.word.toUpper),
        ("message", view text), ("tick", view tick)]

/-! ## Nodes, patterns and agents -/

/-- The name of an arity. -/
def Arity.name : Arity → String
  | none => "None"
  | one => "One"
  | many => "Many"

/-- A pattern without its tree and its condition. -/
instance {N G : Type} : Visible (Pattern N G) :=
  ⟨fun p => .array [view p.name, view p.priority, view p.cooldown, view p.lastUsed]⟩

namespace Node

variable {G : Type}

/-- How many children a node takes, whether it has room for another, and the names of those it
has. -/
def placesView (n : Node G) : List Json :=
  [view n.arity.name, view n.hasRoom, view (n.children.map name)]

/-- **What a node remembers**, seen at a time. -/
def memoryView (now : Duration) : Node G → Json
  | composite _ (.sequence cursor) _ => .object [("cursor", view cursor)]
  | composite _ (.selector cursor) _ => .object [("cursor", view cursor)]
  | composite _ (.parallel policy) _ => .object [("policy", view policy.name)]
  | composite _ (.random d) _ => .object [("chosen", view d.chosen)]
  | composite _ (.weighted ws d) _ => .object [("chosen", view d.chosen), ("weights", view ws)]
  | decorator _ (.repeater times completed) _ =>
    .object [("count", view completed), ("repeat", times.elim (.text "forever") view)]
  | decorator _ (.retry attempts failed) _ =>
    .object [("attempts", view failed), ("max", view attempts)]
  | decorator _ (.timeout limit _) _ => .object [("limit", view limit)]
  | decorator _ (.cooldown d finished) _ =>
    .object [("cooling", view (Decorator.coolingDown d finished now)), ("duration", view d)]
  | leaf _ (.wait d _) => .object [("duration", view d)]
  | leaf _ (.log message level) =>
    .object [("message", view message), ("level", view level.word.capitalize)]
  | leaf _ (.clearValue key) => .object [("key", view key)]
  | patterns _ s =>
    .object [("running", view s.running), ("last", view s.lastChoice),
      ("archetype", view s.archetype)]
  | _ => .null

end Node

/-- **An actor together with the scene of the same number.** -/
def Rehearsal.agentView (r : Rehearsal) (a : AgentId) : Json :=
  let f := r.fighter a
  let t := r.scenes.getD a.index {}
  let counts (m : NameMap Nat) : Json := .object (m.entries.map fun e => (e.1, view e.2))
  .object [("hp", view f.stats.health), ("pos", view f.position), ("state", view f.state),
    ("events", counts f.events), ("effects", counts t.effects),
    ("scheduled", view t.scheduled), ("dead", view f.isDead)]

end Instinct
