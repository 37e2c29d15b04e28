import Instinct.Collaborators

/-! # The enemies of the demonstration, and their surroundings

* **`Fighter`** — an enemy with numbers, a place and a state, that counts what it tells of.
* **`EffectTally`** — a scene that only counts. -/

namespace Instinct

/-- **An enemy.** -/
structure Fighter where
  name : String
  stats : Stats
  position : Vec2
  /-- What the fighter is about, in a word. -/
  state : String := "idle"
  /-- How often events of each kind were told of. -/
  events : NameMap Nat := .empty
  /-- How far one move takes the fighter. -/
  step : Float32 := 0
deriving Inhabited

namespace Fighter

/-- Whether no health is left. -/
def isDead (f : Fighter) : Bool := f.stats.health ≤ 0

/-- The fighter with another health. -/
def withHealth (f : Fighter) (health : Float32) : Fighter :=
  { f with stats := { f.stats with health } }

/-- Lose health, down to zero. -/
def takeDamage (f : Fighter) (amount : Float32) : Fighter :=
  f.withHealth (largerOf (f.stats.health - amount) 0)

/-- Gain health, up to the maximum. -/
def heal (f : Fighter) (amount : Float32) : Fighter :=
  f.withHealth (smallerOf (f.stats.health + amount) f.stats.maxHealth)

/-- Be about something else. -/
def enter (f : Fighter) (state : String) : Fighter := { f with state }

/-- Tell of an event. -/
def tell (f : Fighter) (kind : String) : Fighter := { f with events := f.events.increment kind }

/-- What a fighter can do by itself. -/
def behaviors : List String := ["approach", "retreat"]

/-- **Move by one step**, towards a place or away from it; false without a place or for a behavior
that the fighter does not know. -/
def execute (f : Fighter) (behavior : String) (place : Option Vec2) : Bool × Fighter :=
  match place with
  | none => (false, f)
  | some place =>
    let move := (place - f.position).normalizeOrZero.scale f.step
    if behavior = "approach" then (true, { f with position := f.position + move })
    else if behavior = "retreat" then (true, { f with position := f.position - move })
    else (false, f)

end Fighter

/-- **A scene that only counts** what it is asked for. -/
structure EffectTally where
  /-- How many effects of each kind were asked for. -/
  effects : NameMap Nat := .empty
  /-- How often a call back was asked for. -/
  scheduled : Nat := 0
deriving Inhabited

namespace EffectTally

/-- Count an effect. -/
def spawn (t : EffectTally) (e : Effect) : EffectTally :=
  { t with effects := t.effects.increment e.kind }

/-- Count a call back. -/
def schedule (t : EffectTally) : EffectTally := { t with scheduled := t.scheduled + 1 }

end EffectTally

end Instinct
