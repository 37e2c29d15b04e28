import Instinct.Tree

/-! # Patterns: trees that are started by priority and kept apart by a cooldown

* **`Situation`** — what a pattern sees when it is checked or ticked.
* **`Pattern N G`** — a named tree with a priority, a cooldown and perhaps a condition.
* **`Pattern.eligible`** — whether it may be started: its cooldown is over and its condition holds.
* **`Pattern.tick`** — one tick of its tree, in the situation at hand and on random streams of its
  own. -/

namespace Instinct

/-- **What a pattern sees** when it is checked or ticked. -/
structure Situation where
  frame : Frame
  /-- The agent that acts. -/
  enemy : Option AgentId := none
  /-- What it aims at. -/
  target : Option TargetId := none
  /-- The scene that takes effects. -/
  scene : Option SceneId := none
deriving DecidableEq, Inhabited

/-- The situation that a blackboard tells of. -/
def Situation.ofBoard (frame : Frame) (board : Blackboard) : Situation where
  frame := frame
  enemy := board.get? Keys.enemy
  target := board.get? Keys.target
  scene := board.get? Keys.scene

/-- **A named tree with a priority and a cooldown.** -/
structure Pattern (N G : Type) where
  name : String
  tree : Tree N
  /-- The higher priority is started first. -/
  priority : Int32 := 0
  /-- How long after a start the pattern may not be started again. -/
  cooldown : Duration := .zero
  /-- The time of the last start. -/
  lastUsed : Option Duration := none
  /-- A further condition for a start. -/
  condition : Option (Situation → G → Bool × G) := none

namespace Pattern

variable {N G : Type}

/-- How long at `now` the pattern is still kept from starting. -/
def cooldownRemaining (p : Pattern N G) (now : Duration) : Duration :=
  match p.lastUsed with
  | some at' => p.cooldown - (now - at')
  | none => .zero

/-- Whether the cooldown is over at `now`. -/
def ready (p : Pattern N G) (now : Duration) : Bool := p.cooldownRemaining now = .zero

/-- Whether the condition holds; none always does. -/
def permitted (p : Pattern N G) (s : Situation) (g : G) : Bool × G :=
  match p.condition with
  | some condition => condition s g
  | none => (true, g)

/-- **Whether the pattern may be started.** The condition is asked only once the cooldown is
over. -/
def eligible (p : Pattern N G) (s : Situation) (g : G) : Bool × G :=
  if p.ready s.frame.now then p.permitted s g else (false, g)

/-- Write down the time of a start. -/
def markUsed (p : Pattern N G) (now : Duration) : Pattern N G := { p with lastUsed := some now }

/-- Forget the time of the last start. -/
def clearCooldown (p : Pattern N G) : Pattern N G := { p with lastUsed := none }

/-- The blackboard of the pattern's tree with the situation written on it. -/
def briefedBoard (p : Pattern N G) (s : Situation) : Blackboard :=
  ((p.tree.board.setOrRemove Keys.enemy s.enemy).setOrRemove Keys.target s.target).setOrRemove
    Keys.scene s.scene

/-- **One tick of the pattern's tree.** The seed is salted with the pattern's name, so that trees of
different patterns do not draw alike. -/
def tick (m : Machine N G) (p : Pattern N G) (s : Situation) (stage : Stage G) :
    Status × Pattern N G × Stage G :=
  let tree := { p.tree with board := p.briefedBoard s }
  let (status, tree, stage) := tree.tick m (s.frame.salted (nameSalt p.name)) stage
  (status, { p with tree }, stage)

/-- The pattern after its tree is reset. -/
def reset (m : Machine N G) (p : Pattern N G) : Pattern N G := { p with tree := p.tree.reset m }

end Pattern

end Instinct
