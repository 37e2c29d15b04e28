import Instinct.Demo.Fighter
import Instinct.Node
import Instinct.Text.Exact

/-! # Rehearsals: a game that writes down what is asked of it

For trying trees out: the fighters and scenes of the demonstration, each of which leaves a line in a
log whenever a tree calls on it. Numbers are written by their bits, so that no two differ only
behind the shown digits.

* **`Rehearsal`** — the game.
* **`Node.dummy`**, **`Node.limited`** — nodes of this game's own making. -/

namespace Instinct

/-- **A fighter on stage.** -/
structure Actor where
  fighter : Fighter
  /-- Whether it can do nothing by itself. -/
  plain : Bool := false
deriving Inhabited

/-- **A game that writes down what is asked of it.** Handles are places in the arrays. -/
structure Rehearsal where
  actors : Array Actor := #[]
  targets : Array Vec2 := #[]
  scenes : Array EffectTally := #[]
  /-- What was written down, oldest first. -/
  lines : Array String := #[]
  /-- How often each script was asked. -/
  turns : Array Nat := #[]
deriving Inhabited

namespace Rehearsal

/-- Write down a line. -/
def say (r : Rehearsal) (line : String) : Rehearsal := { r with lines := r.lines.push line }

/-- The actor of a handle. -/
def actor (r : Rehearsal) (a : AgentId) : Actor := r.actors.getD a.index default

/-- The fighter of a handle. -/
def fighter (r : Rehearsal) (a : AgentId) : Fighter := (r.actor a).fighter

/-- Change a fighter. -/
def mapFighter (r : Rehearsal) (a : AgentId) (f : Fighter → Fighter) : Rehearsal :=
  { r with actors := r.actors.modify a.index fun x => { x with fighter := f x.fighter } }

/-- Change a scene. -/
def mapScene (r : Rehearsal) (s : SceneId) (f : EffectTally → EffectTally) : Rehearsal :=
  { r with scenes := r.scenes.modify s.index f }

/-- The turn of a script, from zero, and the game after it. -/
def takeTurn (r : Rehearsal) (script : Nat) : Nat × Rehearsal :=
  let missing := script + 1 - r.turns.size
  (r.turns.getD script 0,
    { r with turns := (r.turns ++ Array.replicate missing 0).modify script (· + 1) })

open Text

instance : Collaborators Rehearsal where
  stats a r := (r.fighter a).stats
  position a r := (r.fighter a).position
  isDead a r := (r.fighter a).isDead
  heal a amount r :=
    let r := r.mapFighter a (·.heal amount)
    let f := r.fighter a
    r.say (words [f.name ++ ".heal", bits amount, "->", bits f.stats.health])
  emitEvent a kind j r :=
    let line := words [(r.fighter a).name ++ ".emit", kind, String.join (exactJson j.sorted)]
    (r.say line).mapFighter a (·.tell kind)
  setState a state r :=
    let f := r.fighter a
    (r.mapFighter a (·.enter state)).say (words [f.name ++ ".state", f.state, "->", state])
  behaviors a r := if (r.actor a).plain then [] else Fighter.behaviors
  executeBehavior a behavior place r :=
    if (r.actor a).plain then (false, r)
    else
      let (done, f) := (r.fighter a).execute behavior place
      let line := words [f.name ++ ".exec", behavior, if done then "true" else "false",
        bits f.position.x, bits f.position.y]
      (done, (r.mapFighter a fun _ => f).say line)
  targetPosition t r := r.targets.getD t.index .zero
  spawnEffect s e r :=
    (r.mapScene s (·.spawn e)).say (words ["fx", e.kind, bits e.position.x, bits e.position.y,
      Decimal.natText e.duration.nanos])
  schedule s delay label r :=
    (r.mapScene s (·.schedule)).say (words ["schedule", label, Decimal.natText delay.nanos])

end Rehearsal

namespace Node

/-- A node that says it has room for children but takes none. It writes down its ticks and
resets. -/
def dummy (arity : Arity) : Node Rehearsal :=
  .custom {
    name := Kind.custom.name
    arity := fun _ => arity
    attachable := false
    enter := fun _ b r => (b, r.say "stub")
    conclude := fun _ r => (.success, r)
    onReset := (·.say "stub.reset") } []

/-- A node that has room for a number of children. It ticks them all and reports what the last one
does. -/
def limited (cap : Nat) (children : List (Node Rehearsal)) : Node Rehearsal :=
  .custom {
    name := "limited"
    arity := fun count => if count < cap then .many else .none
    attachable := true
    enter := fun _ b r => (b, r)
    conclude := fun statuses r => (statuses.getLastD .success, r)
    onReset := (·.say "limited.reset") } children

end Node

end Instinct
