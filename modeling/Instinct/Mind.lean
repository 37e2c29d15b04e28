import Instinct.Node
import Instinct.Collaborators

/-! # Minds: one decision cycle for each frame

* **`Pace`** — on which frames a mind thinks, and the seed of its choices.
* **`Mind G`** — a tree with a clock and the handles of its collaborators.
* **`Mind.update`** — one frame: move the clock, write down the situation, and tick the tree if it
  is a frame to think on and the agent is alive. -/

namespace Instinct

/-- **On which frames a mind thinks**, and the seed of its choices. -/
structure Pace where
  /-- Every how many frames; zero counts as one. -/
  every : UInt32 := 1
  /-- How far the thinking frames are moved. -/
  offset : UInt32 := 0
  /-- The seed of every random choice of the tree. -/
  seed : UInt64 := 0
  /-- Whether a tree that begins to fail is told about. -/
  warnOnFailure : Bool := true
deriving DecidableEq, Inhabited

namespace Pace

/-- The number of frames from one thought to the next. -/
def period (every : UInt32) : UInt32 := if every = 0 then 1 else every

/-- **Spread the agents that think every so many frames** over those frames by their numbers. -/
def staggered (id : UInt64) (every : UInt32) : Pace :=
  let period := period every
  { every := period, offset := (id % period.toUInt64).toUInt32, seed := id }

/-- **Whether a tick is one to think on.** -/
def thinksOn (p : Pace) (tick : UInt64) : Bool :=
  (tick + p.offset.toUInt64) % (period p.every).toUInt64 == 0

end Pace

/-- **A tree with a clock and the handles of its collaborators.** -/
structure Mind (G : Type) where
  tree : Tree (Node G)
  clock : Clock
  pace : Pace
  agent : Option AgentId := none
  target : Option TargetId := none
  /-- What the last update reported. -/
  last : Option Status := none

namespace Mind

variable {G : Type}

/-- A mind that has not seen a frame yet. -/
def ofTree (tree : Tree (Node G)) (pace : Pace) : Mind G where
  tree := { tree with warns := pace.warnOnFailure }
  clock := { seed := pace.seed }
  pace := pace

/-- Change the blackboard of the tree. -/
def mapBoard (m : Mind G) (f : Blackboard → Blackboard) : Mind G :=
  { m with tree := { m.tree with board := f m.tree.board } }

/-- Give the mind an agent to drive. -/
def withAgent (m : Mind G) (agent : AgentId) : Mind G :=
  { m.mapBoard (·.set Keys.enemy agent) with agent := some agent }

/-- Aim at another target, or at none. -/
def setTarget (m : Mind G) (target : Option TargetId) : Mind G :=
  let m := m.mapBoard fun b =>
    match target with
    | some t => b.set Keys.target t
    | none => ((b.remove Keys.target).remove Keys.targetPosition).remove Keys.targetDistance
  { m with target }

/-- Give the mind a scene for its effects. -/
def withScene (m : Mind G) (scene : SceneId) : Mind G := m.mapBoard (·.set Keys.scene scene)

/-- The simulated time so far. -/
def now (m : Mind G) : Duration := m.clock.now

section

variable [Collaborators G]

/-- The blackboard with the agent's own situation written on it. -/
def writeAgent (agent : AgentId) (g : G) (b : Blackboard) : Blackboard :=
  let stats := Collaborators.stats agent g
  ((b.set Keys.healthRatio stats.healthRatio).set Keys.isDead
    (Collaborators.isDead agent g)).set Keys.position (Collaborators.position agent g)

/-- The blackboard with the target's place written on it, as seen from the agent. -/
def writeTarget (agent : AgentId) (target : TargetId) (g : G) (b : Blackboard) : Blackboard :=
  let position := Collaborators.targetPosition target g
  (b.set Keys.targetPosition position).set Keys.targetDistance
    ((Collaborators.position agent g).distance position)

/-- **The blackboard with the situation of a frame written on it.** Without an agent that is the
length of the frame only. -/
def refresh (m : Mind G) (frame : Frame) (g : G) (b : Blackboard) : Blackboard :=
  let b := b.set Keys.deltaTime frame.dt
  match m.agent with
  | none => b
  | some agent =>
    let b := writeAgent agent g b
    match m.target with
    | none => b
    | some target => writeTarget agent target g b

/-- **One frame.** The tree of a dead agent is not ticked and the frame counts as a failure; on a
frame that is not for thinking the last status is reported again. -/
def update (m : Mind G) (dt : Duration) (s : Stage G) : Status × Mind G × Stage G :=
  let (frame, clock) := m.clock.advance dt
  let m := { m with clock }
  let m := m.mapBoard (m.refresh frame s.game)
  if m.tree.board.flag Keys.isDead then (.failure, { m with last := some .failure }, s)
  else if m.pace.thinksOn frame.tick then
    let (status, tree, s) := m.tree.tick Node.asMachine frame s
    (status, { m with tree, last := some status }, s)
  else (m.last.getD .running, m, s)

/-- One frame for several minds, in order. -/
def updateAll (dt : Duration) : List (Mind G) → Stage G → List (Mind G) × Stage G
  | [], s => ([], s)
  | m :: ms, s =>
    let (_, m, s) := m.update dt s
    let (ms, s) := updateAll dt ms s
    (m :: ms, s)

end

end Mind

end Instinct
