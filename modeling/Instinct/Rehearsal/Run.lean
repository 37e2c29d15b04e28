import Instinct.Demo.Battle
import Instinct.Rehearsal

/-! # Runs: rehearsing frame by frame

* **`Stage.repeatedly`** — something done a number of times, with what was written down each time.
* **`Bench`** — a node on a blackboard of its own, without a tree around it.
* **`Performance`** — an actor in battle, with incidents between the frames.
* **`Performance.run`** — the moments of a performance that are worth telling. -/

namespace Instinct

/-- Take away the lines that were written down. -/
def Rehearsal.takeLines (r : Rehearsal) : List String × Rehearsal :=
  (r.lines.toList, { r with lines := #[] })

namespace Stage

/-- Take away the lines that were written down. -/
def takeLines (s : Stage Rehearsal) : List String × Stage Rehearsal :=
  let (lines, game) := s.game.takeLines
  (lines, { s with game })

/-- Take away the notices. -/
def takeNotices {G : Type} (s : Stage G) : List Notice × Stage G :=
  (s.notices.toList, { s with notices := #[] })

/-- **Do something a number of times**: what it reported and what was written down each time. The
notices are dropped. -/
def repeatedly {σ : Type} (act : σ → Stage Rehearsal → Status × σ × Stage Rehearsal) :
    (times : Nat) → σ → Stage Rehearsal → List (Status × List String) × σ × Stage Rehearsal
  | 0, a, s => ([], a, s.takeNotices.2)
  | times + 1, a, s =>
    let (status, a, s) := act a s
    let (lines, s) := s.takeLines
    let (rest, a, s) := repeatedly act times a s
    ((status, lines) :: rest, a, s)

/-- Do something at every frame of a clock, a number of times. -/
def alongClock {σ : Type} (act : Frame → σ → Stage Rehearsal → Status × σ × Stage Rehearsal)
    (dt : Duration) (clock : Clock) (times : Nat) (a : σ) (s : Stage Rehearsal) :
    List (Status × List String) × σ × Stage Rehearsal :=
  let (rows, (_, a), s) := repeatedly (fun (clock, a) s =>
    let (frame, clock) := clock.advance dt
    let (status, a, s) := act frame a s
    (status, (clock, a), s)) times (clock, a) s
  (rows, a, s)

end Stage

/-- **A node on a blackboard of its own.** -/
structure Bench where
  node : Node Rehearsal
  board : Blackboard := .empty
  /-- The time of the last tick. -/
  now : Duration := .zero

/-- One tick of the node. -/
def Bench.tick (frame : Frame) (t : Bench) (s : Stage Rehearsal) :
    Status × Bench × Stage Rehearsal :=
  let o := t.node.tick frame { board := t.board, stage := s }
  (o.status, { node := o.node, board := o.world.board, now := frame.now }, o.world.stage)

/-- Forget when the child of a cooldown was last done. -/
def Node.clear {G : Type} : Node G → Node G
  | decorator title d child => decorator title d.clear child
  | n => n

/-- Every node of a tree forgets its unfinished run. -/
def Tree.restart {G : Type} (t : Tree (Node G)) (s : Stage G) : Tree (Node G) × Stage G :=
  (t.reset Node.asMachine, s.mapGame (t.onReset Node.asMachine))

/-! ## Performances -/

/-- **What may happen before a frame.** -/
inductive Incident where
  /-- The actor aims at another target, or at none. -/
  | aim (target : Option TargetId)
  /-- The actor takes damage at another rate. -/
  | damage (perSecond : Float32)
  /-- The tree is reset. -/
  | reset
  /-- A slot of the blackboard is written. -/
  | put (key : String) (value : Value)
  /-- A slot of the blackboard is removed. -/
  | drop (key : String)
  /-- The actor is changed. -/
  | alter (f : Fighter → Fighter)

/-- **An actor in battle.** -/
structure Performance where
  mind : Mind Rehearsal
  agent : AgentId
  /-- The length of a frame. -/
  dt : Duration
  /-- The damage that the actor takes in a second. -/
  incomingDps : Float32
  /-- What the last frame reported. -/
  last : Option Status := none

/-- **A moment worth telling.** -/
structure Moment where
  /-- The number of the frame, from zero. -/
  frame : Nat
  status : Status
  /-- The actor after the frame. -/
  fighter : Fighter
  /-- What was written down in the frame. -/
  lines : List String

namespace Performance

/-- Let something happen. -/
def befall (p : Performance) (s : Stage Rehearsal) : Incident → Performance × Stage Rehearsal
  | .aim target => ({ p with mind := p.mind.setTarget target }, s)
  | .damage perSecond => ({ p with incomingDps := perSecond }, s)
  | .reset =>
    let (tree, s) := p.mind.tree.restart s
    ({ p with mind := { p.mind with tree } }, s)
  | .put key value => ({ p with mind := p.mind.mapBoard (·.put key value) }, s)
  | .drop key => ({ p with mind := p.mind.mapBoard (·.removeName key) }, s)
  | .alter f => (p, s.mapGame (·.mapFighter p.agent f))

/-- One frame: the actor takes the frame's damage and its mind is updated. -/
def frame (p : Performance) (s : Stage Rehearsal) : Status × Performance × Stage Rehearsal :=
  let s := s.mapGame (·.mapFighter p.agent (Battle.suffer p.incomingDps p.dt))
  let (status, mind, s) := p.mind.update p.dt s
  (status, { p with mind, last := some status }, s)

/-- **Frames with the incidents before each.** A frame is worth telling if something was written
down, if its status is another than before, or if it is the last one. -/
def run (p : Performance) (incidents : Nat → List Incident) (left index : Nat)
    (s : Stage Rehearsal) : List Moment × Performance × Stage Rehearsal :=
  match left with
  | 0 => ([], p, s)
  | left + 1 =>
    let (p, s) := (incidents index).foldl (fun (p, s) i => p.befall s i) (p, s)
    let previous := p.last
    let (status, p, s) := p.frame s
    let (lines, s) := s.takeLines
    let moment : Moment := { frame := index, status, fighter := s.game.fighter p.agent, lines }
    let (rest, p, s) := p.run incidents left (index + 1) s
    if !lines.isEmpty || previous ≠ some status || left = 0 then (moment :: rest, p, s)
    else (rest, p, s)

end Performance

end Instinct
