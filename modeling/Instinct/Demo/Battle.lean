import Instinct.Demo.Arena
import Instinct.Demo.Archetype

/-! # Battles: one enemy, frame by frame

* **`Battle`** — a mind, the arena and a count of what its updates reported.
* **`Battle.frame`** — one frame: the fighter takes damage and the mind is updated.
* **`Battle.run`** — frames up to a number, or up to the first after which the fighter is dead.
* **`Summary`** — what is told of a battle afterwards. -/

namespace Instinct

/-- **How a battle is fought.** -/
structure BattlePlan where
  /-- How many frames at most. -/
  frames : Nat
  /-- The length of a frame. -/
  dt : Duration
  /-- The damage that the fighter takes in a second. -/
  incomingDps : Float32

/-- **A battle under way.** -/
structure Battle where
  mind : Mind Arena
  stage : Stage Arena
  /-- How often each status was reported. -/
  statuses : NameMap Nat := .empty

namespace Battle

/-- Where the fighter starts. -/
def startingPlace : Vec2 := .zero

/-- Where the target stands. -/
def targetPlace : Vec2 := ⟨14, 3⟩

/-- A battle of an archetype before its first frame, with a log for trace events. -/
def start (name : String) (archetype : Archetype Arena) (pace : Pace) : Battle where
  mind :=
    let mind := (((Mind.ofTree archetype.tree pace).withAgent Arena.fighterId).setTarget
      (some Arena.targetId)).withScene Arena.sceneId
    mind.mapBoard (·.set Keys.traceLog .empty)
  stage :=
    { game := {
        fighter := { name, stats := archetype.stats, position := startingPlace }
        target := targetPlace } }

/-- What happens to the fighter before it thinks: its step is made to fit the frame, and it takes
the frame's damage. -/
def suffer (incomingDps : Float32) (dt : Duration) (f : Fighter) : Fighter :=
  let seconds := dt.toFloat32
  { f with step := f.stats.speed * seconds }.takeDamage (incomingDps * seconds)

/-- **One frame.** -/
def frame (plan : BattlePlan) (b : Battle) : Battle :=
  let stage := b.stage.mapGame (·.mapFighter (suffer plan.incomingDps plan.dt))
  let (status, mind, stage) := b.mind.update plan.dt stage
  { mind, stage, statuses := b.statuses.increment status.word }

/-- **Frames up to a number**, or up to the first after which the fighter is dead. -/
def run (plan : BattlePlan) : (frames : Nat) → Battle → Battle
  | 0, b => b
  | frames + 1, b =>
    let b := b.frame plan
    if b.stage.game.fighter.isDead then b else run plan frames b

/-- The events in the log by their tags. -/
def traceCounts (b : Battle) : NameMap Nat :=
  match b.mind.tree.board.get? Keys.traceLog with
  | some log => log.events.foldl (fun m e => m.increment e.tag) .empty
  | none => .empty

end Battle

/-- **What is told of a battle.** -/
structure Summary where
  archetype : String
  /-- How many frames were fought. -/
  frames : Nat
  elapsedMs : UInt64
  /-- How often each status was reported. -/
  statuses : NameMap Nat
  finalState : String
  finalHealth : Float32
  finalPosition : Vec2
  /-- How often the fighter told of each kind of event. -/
  agentEvents : NameMap Nat
  tally : EffectTally
  /-- How many trace events carry each tag. -/
  trace : NameMap Nat

namespace Summary

/-- The summary of a battle. -/
def ofBattle (name : String) (b : Battle) : Summary :=
  let fighter := b.stage.game.fighter
  { archetype := name
    frames := b.statuses.values.foldl (· + ·) 0
    elapsedMs := UInt64.ofNat b.mind.now.millis
    statuses := b.statuses
    finalState := fighter.state
    finalHealth := fighter.stats.health
    finalPosition := fighter.position
    agentEvents := fighter.events
    tally := b.stage.game.tally
    trace := b.traceCounts }

end Summary

/-- **Fight a whole battle** and sum it up. -/
def Battle.fight (name : String) (tuning : Tuning) (pace : Pace) (plan : BattlePlan) :
    Except ArchetypeError Summary := do
  let archetype ← Archetype.find name tuning
  return .ofBattle name ((Battle.start name archetype pace).run plan plan.frames)

end Instinct
