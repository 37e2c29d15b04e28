import Instinct.Duration
import Instinct.Vec2
import Instinct.NameMap
import Instinct.Trace

/-! # The blackboard

Scratch space of one tree: values under names, each value with a type of its own.

* **`Value`** — what the slots of a running tree may hold.
* **`Slot α V`** — the types whose values can be put into a slot and read back; reading a slot at
  another type finds nothing.
* **`Key α`** — a name together with the type at which it is read. Two keys of one name mean the
  same slot, whatever their types.
* **`Blackboard V`** — the slots in the order of their names. No operation looks into what a slot
  holds but through `Slot`, so they are the same for every `V`; it is `Value` where nothing is said.
* **`Keys`** — the names under which an agent's situation is kept. -/

namespace Instinct

/-- The handle of an agent of the game. -/
structure AgentId where
  index : Nat
deriving DecidableEq, Inhabited

/-- The handle of something an agent can aim at. -/
structure TargetId where
  index : Nat
deriving DecidableEq, Inhabited

/-- The handle of a scene that takes effects. -/
structure SceneId where
  index : Nat
deriving DecidableEq, Inhabited

/-- Where events are streamed to: nowhere, or to a receiver known by its number. -/
inductive TraceStream where
  | discard
  | receiver (index : Nat)
deriving DecidableEq, Inhabited

/-- **What a slot of a running tree may hold.** -/
inductive Value where
  | bool (b : Bool)
  | int (n : Int64)
  | byte (n : UInt8)
  | word (n : UInt32)
  | float (x : Float32)
  | text (s : String)
  | duration (d : Duration)
  | vec (v : Vec2)
  | agent (a : AgentId)
  | target (t : TargetId)
  | scene (s : SceneId)
  | log (l : TraceLog)
  | stream (s : TraceStream)
deriving DecidableEq, Inhabited

/-- **A type whose values fit into a slot.** Packing and reading back are inverse to each other, so
a slot reads as `α` exactly when an `α` was put there. -/
class Slot (α : Type) (V : Type := Value) where
  /-- The value as a slot holds it. -/
  pack : α → V
  /-- Reads a slot's value at this type. -/
  unpack? : V → Option α
  unpack?_eq_some_iff : ∀ v a, unpack? v = some a ↔ v = pack a

attribute [simp] Slot.unpack?_eq_some_iff

instance : Slot Bool where
  pack := .bool
  unpack? | .bool b => some b | _ => none
  unpack?_eq_some_iff v a := by cases v <;> simp

instance : Slot Int64 where
  pack := .int
  unpack? | .int n => some n | _ => none
  unpack?_eq_some_iff v a := by cases v <;> simp

instance : Slot UInt8 where
  pack := .byte
  unpack? | .byte n => some n | _ => none
  unpack?_eq_some_iff v a := by cases v <;> simp

instance : Slot UInt32 where
  pack := .word
  unpack? | .word n => some n | _ => none
  unpack?_eq_some_iff v a := by cases v <;> simp

instance : Slot Float32 where
  pack := .float
  unpack? | .float x => some x | _ => none
  unpack?_eq_some_iff v a := by cases v <;> simp

instance : Slot String where
  pack := .text
  unpack? | .text s => some s | _ => none
  unpack?_eq_some_iff v a := by cases v <;> simp

instance : Slot Duration where
  pack := .duration
  unpack? | .duration d => some d | _ => none
  unpack?_eq_some_iff v a := by cases v <;> simp

instance : Slot Vec2 where
  pack := .vec
  unpack? | .vec v => some v | _ => none
  unpack?_eq_some_iff v a := by cases v <;> simp

instance : Slot AgentId where
  pack := .agent
  unpack? | .agent a => some a | _ => none
  unpack?_eq_some_iff v a := by cases v <;> simp

instance : Slot TargetId where
  pack := .target
  unpack? | .target t => some t | _ => none
  unpack?_eq_some_iff v a := by cases v <;> simp

instance : Slot SceneId where
  pack := .scene
  unpack? | .scene s => some s | _ => none
  unpack?_eq_some_iff v a := by cases v <;> simp

instance : Slot TraceLog where
  pack := .log
  unpack? | .log l => some l | _ => none
  unpack?_eq_some_iff v a := by cases v <;> simp

instance : Slot TraceStream where
  pack := .stream
  unpack? | .stream s => some s | _ => none
  unpack?_eq_some_iff v a := by cases v <;> simp

/-- A name and the type at which its slot is read. -/
structure Key (α : Type) where
  name : String
deriving DecidableEq

/-- **The slots of one tree.** A slot exists from its first write on; reading one that does not
exist, or at another type, finds nothing. -/
structure Blackboard (V : Type := Value) where
  slots : NameMap V
deriving Inhabited

namespace Blackboard

variable {α V : Type}

/-- The blackboard without slots. -/
def empty : Blackboard V := ⟨.empty⟩

/-- The number of slots. -/
def size (b : Blackboard V) : Nat := b.slots.size

/-- Whether there is no slot. -/
def isEmpty (b : Blackboard V) : Bool := b.slots.isEmpty

/-- The names of the slots, in order. -/
def names (b : Blackboard V) : List String := b.slots.names

/-- Whether a name has a slot, of whatever type. -/
def containsName (b : Blackboard V) (name : String) : Bool := b.slots.contains name

/-- Whether a key's name has a slot, of whatever type. -/
def contains (b : Blackboard V) (key : Key α) : Bool := b.containsName key.name

/-- What the slot of a name holds, of whatever type. -/
def value? (b : Blackboard V) (name : String) : Option V := b.slots.get? name

/-- Write the slot of a name. -/
def put (b : Blackboard V) (name : String) (value : V) : Blackboard V :=
  ⟨b.slots.insert name value⟩

/-- Write the slot of a name known only at run time. -/
def setNamed [Slot α V] (b : Blackboard V) (name : String) (value : α) : Blackboard V :=
  b.put name (Slot.pack value)

/-- Write the slot of a key; a value of another type is replaced. -/
def set [Slot α V] (b : Blackboard V) (key : Key α) (value : α) : Blackboard V :=
  b.setNamed key.name value

/-- Read the slot of a name at a type. -/
def getAs? (α : Type) [Slot α V] (b : Blackboard V) (name : String) : Option α :=
  (b.value? name).bind Slot.unpack?

/-- Read the slot of a key. -/
def get? [Slot α V] (b : Blackboard V) (key : Key α) : Option α := b.getAs? α key.name

/-- Read the slot of a key, with a value to fall back on. -/
def getD [Slot α V] (b : Blackboard V) (key : Key α) (fallback : α) : α :=
  (b.get? key).getD fallback

/-- Read a flag. A slot that is missing or no flag reads as `false`. -/
def flag [Slot Bool V] (b : Blackboard V) (key : Key Bool) : Bool := b.getD key false

/-- Change the value of a key in place, if its slot holds one of the key's type. -/
def modify [Slot α V] (b : Blackboard V) (key : Key α) (f : α → α) : Blackboard V :=
  ⟨b.slots.modify key.name fun v =>
    match Slot.unpack? v with
    | some a => Slot.pack (f a)
    | none => v⟩

/-- Remove the slot of a name. -/
def removeName (b : Blackboard V) (name : String) : Blackboard V := ⟨b.slots.erase name⟩

/-- Remove the slot of a key if it holds a value of the key's type; any other is left alone. -/
def remove [Slot α V] (b : Blackboard V) (key : Key α) : Blackboard V :=
  match b.get? key with
  | some _ => b.removeName key.name
  | none => b

/-- Write the slot of a key, or remove what it holds of the key's type. -/
def setOrRemove [Slot α V] (b : Blackboard V) (key : Key α) : Option α → Blackboard V
  | some value => b.set key value
  | none => b.remove key

/-! ## What the operations do to the slots -/

/-- A new blackboard has no slots. -/
@[simp] theorem value?_empty (name : String) : (empty : Blackboard V).value? name = none := rfl

/-- After a slot was written it holds the value, and every other slot what it held. -/
theorem value?_put (b : Blackboard V) (name other : String) (v : V) :
    (b.put name v).value? other = if name = other then some v else b.value? other :=
  NameMap.get?_insert b.slots name other v

/-- After a name was written its slot holds the value as it is packed. -/
theorem value?_setNamed [Slot α V] (b : Blackboard V) (name other : String) (a : α) :
    (b.setNamed name a).value? other =
      if name = other then some (Slot.pack a) else b.value? other :=
  NameMap.get?_insert b.slots name other (Slot.pack a)

/-- After a name was removed it has no slot, and every other slot holds what it held. -/
theorem value?_removeName (b : Blackboard V) (name other : String) :
    (b.removeName name).value? other = if name = other then none else b.value? other :=
  NameMap.get?_erase b.slots name other

/-- A change in place is made to the slot of the key alone, and only if that reads at the key's
type. -/
theorem value?_modify [Slot α V] (b : Blackboard V) (key : Key α) (f : α → α) (other : String) :
    (b.modify key f).value? other =
      if key.name = other then
        (b.value? other).map fun v =>
          match Slot.unpack? v with
          | some a => Slot.pack (f a)
          | none => v
      else b.value? other :=
  NameMap.get?_modify b.slots key.name other _

variable {β : Type} [Slot α V] [Slot β V]

/-- What was packed is read back. -/
theorem unpack?_pack (a : α) : (Slot.unpack? (Slot.pack a : V) : Option α) = some a :=
  (Slot.unpack?_eq_some_iff _ _).mpr rfl

/-- Slots that hold the same read the same. -/
theorem get?_of_value? {b b' : Blackboard V} {key : Key α}
    (h : b'.value? key.name = b.value? key.name) : b'.get? key = b.get? key := by
  rw [get?, getAs?, h]
  rfl

/-- Writing one slot leaves the others as they read. -/
theorem get?_put_of_ne {b : Blackboard V} {name : String} {key : Key α} (h : name ≠ key.name)
    (v : V) : (b.put name v).get? key = b.get? key :=
  get?_of_value? ((b.value?_put name key.name v).trans (if_neg h))

/-- Removing one slot leaves the others as they read. -/
theorem get?_removeName_of_ne {b : Blackboard V} {name : String} {key : Key α}
    (h : name ≠ key.name) : (b.removeName name).get? key = b.get? key :=
  get?_of_value? ((b.value?_removeName name key.name).trans (if_neg h))

/-- A slot reads as what was just written. -/
theorem get?_set (b : Blackboard V) (key : Key α) (a : α) : (b.set key a).get? key = some a := by
  rw [get?, getAs?, set, value?_setNamed, if_pos rfl]
  exact unpack?_pack a

/-- Writing through one key leaves the slots of other names as they read. -/
theorem get?_set_of_ne (b : Blackboard V) {key : Key α} {other : Key β} (h : key.name ≠ other.name)
    (a : α) : (b.set key a).get? other = b.get? other :=
  get?_of_value? ((b.value?_setNamed key.name other.name a).trans (if_neg h))

/-- A slot reads as what was just made of it. -/
theorem get?_modify (b : Blackboard V) (key : Key α) (f : α → α) :
    (b.modify key f).get? key = (b.get? key).map f := by
  rw [get?, getAs?, value?_modify, if_pos rfl, get?, getAs?]
  cases b.value? key.name with
  | none => rfl
  | some v =>
    cases hv : (Slot.unpack? v : Option α) with
    | none => simp [hv]
    | some a => simp [hv, unpack?_pack]

/-- A slot that was just removed reads as nothing. -/
theorem get?_removeName (b : Blackboard V) (key : Key α) :
    (b.removeName key.name).get? key = none := by
  rw [get?, getAs?, value?_removeName, if_pos rfl]
  rfl

/-- A key that was just removed reads as nothing, even where the slot stays because of its type. -/
theorem get?_remove (b : Blackboard V) (key : Key α) : (b.remove key).get? key = none := by
  unfold remove
  cases h : b.get? key with
  | none => exact h
  | some a => exact b.get?_removeName key

/-- Removing through one key leaves the slots of other names as they read. -/
theorem get?_remove_of_ne (b : Blackboard V) {key : Key α} {other : Key β}
    (h : key.name ≠ other.name) : (b.remove key).get? other = b.get? other := by
  unfold remove
  cases b.get? key with
  | none => rfl
  | some a => exact get?_removeName_of_ne h

/-- Writing or removing one slot leaves what the others hold. -/
theorem value?_setOrRemove_of_ne (b : Blackboard V) {key : Key α} {other : String}
    (h : key.name ≠ other) (a : Option α) :
    (b.setOrRemove key a).value? other = b.value? other := by
  cases a with
  | none =>
    show (b.remove key).value? other = b.value? other
    unfold remove
    cases b.get? key with
    | none => rfl
    | some a => rw [value?_removeName, if_neg h]
  | some a => exact (b.value?_setNamed key.name other a).trans (if_neg h)

/-- Two changes in place are one. -/
theorem modify_modify (b : Blackboard V) (key : Key α) (f g : α → α) :
    (b.modify key f).modify key g = b.modify key fun a => g (f a) := by
  refine congrArg mk (NameMap.toRaw_inj.mp ?_)
  refine (b.slots.toRaw.modify_modify key.name _ _).trans (NameMap.Raw.modify_congr ?_)
  intro v _
  cases hv : (Slot.unpack? v : Option α) with
  | none => simp only [hv]
  -- what the first change packed is what the second one reads
  | some a => simp only [unpack?_pack]

/-- A change that leaves what is read as it is changes nothing, not even a slot of another type. -/
theorem modify_eq_self {b : Blackboard V} {key : Key α} {f : α → α}
    (h : ∀ a ∈ b.get? key, f a = a) : b.modify key f = b := by
  refine congrArg mk (NameMap.toRaw_inj.mp (NameMap.Raw.modify_eq_self fun v hv => ?_))
  have hvalue : b.value? key.name = some v := hv
  cases hunpack : (Slot.unpack? v : Option α) with
  | none => rfl
  | some a =>
    have hget : b.get? key = some a := by rw [get?, getAs?, hvalue, Option.bind_some, hunpack]
    show Slot.pack (f a) = v
    rw [h a hget]
    exact ((Slot.unpack?_eq_some_iff v a).mp hunpack).symm

/-- A slot that was just written or removed reads as what was asked for. -/
theorem get?_setOrRemove (b : Blackboard V) (key : Key α) (a : Option α) :
    (b.setOrRemove key a).get? key = a := by
  cases a with
  | none => exact b.get?_remove key
  | some a => exact b.get?_set key a

/-- Writing or removing one slot leaves the others as they read. -/
theorem get?_setOrRemove_of_ne (b : Blackboard V) {key : Key α} {other : Key β}
    (h : key.name ≠ other.name) (a : Option α) :
    (b.setOrRemove key a).get? other = b.get? other := by
  cases a with
  | none => exact b.get?_remove_of_ne h
  | some a => exact b.get?_set_of_ne h a

end Blackboard

/-! ## Names with a fixed meaning -/

namespace Keys

/-- The agent that the tree drives. -/
def enemy : Key AgentId := ⟨"enemy"⟩

/-- What the agent aims at. -/
def target : Key TargetId := ⟨"target"⟩

/-- The scene that takes effects. -/
def scene : Key SceneId := ⟨"scene"⟩

/-- The agent's health as a fraction of its maximum. -/
def healthRatio : Key Float32 := ⟨"health_ratio"⟩

/-- Whether the agent is dead. -/
def isDead : Key Bool := ⟨"is_dead"⟩

/-- Where the agent is. -/
def position : Key Vec2 := ⟨"position"⟩

/-- Where the target is. -/
def targetPosition : Key Vec2 := ⟨"target_position"⟩

/-- How far the target is from the agent. -/
def targetDistance : Key Float32 := ⟨"target_distance"⟩

/-- The length of the frame. -/
def deltaTime : Key Duration := ⟨"delta_time"⟩

/-- The log that collects events. -/
def traceLog : Key TraceLog := ⟨"__trace.log"⟩

/-- Where events are streamed to. -/
def traceStream : Key TraceStream := ⟨"__trace.sink"⟩

end Keys

end Instinct
