import Instinct.Blackboard
import Instinct.Status

/-! # What the nodes of a tree act on

* **`PatternError`** — why a pattern could not be found or added.
* **`Notice`** — something told to whoever watches the run. No node can see what was told.
* **`Stage G`** — everything outside the blackboard: the game itself, of a type of the game's own
  choice, and what was told and streamed so far.
* **`World G`** — a blackboard on a stage.
* **`World.emit`** — record a trace event wherever the blackboard asks for it. -/

namespace Instinct

/-- **Why a pattern could not be found or added.** -/
inductive PatternError where
  /-- No pattern was ever added for the archetype. -/
  | unknownArchetype (archetype : String)
  /-- The archetype has no pattern of that name. -/
  | unknownPattern (archetype pattern : String)
  /-- The archetype has a pattern of that name already. -/
  | duplicatePattern (archetype pattern : String)
deriving DecidableEq, Inhabited

/-- The error in words. -/
def PatternError.message : PatternError → String
  | unknownArchetype a => s!"unknown archetype `{a}`"
  | unknownPattern a p => s!"archetype `{a}` has no pattern named `{p}`"
  | duplicatePattern a p => s!"archetype `{a}` already has a pattern named `{p}`"

/-- **Something told to whoever watches the run.** -/
inductive Notice where
  /-- A tree began to fail. -/
  | rootFailed (root : String) (tick : UInt64)
  /-- The pattern in progress is no longer there. -/
  | patternLost (error : PatternError)
  /-- A message that a tree was told to pass on. -/
  | message (level : Level) (text : String) (tick : UInt64)
deriving DecidableEq

/-- **Everything outside the blackboard.** Callbacks see and change `game` only. -/
structure Stage (G : Type) where
  /-- The game's own state. -/
  game : G
  /-- What was told so far, oldest first. -/
  notices : Array Notice := #[]
  /-- The events streamed so far, each with the number of its receiver, oldest first. -/
  streamed : Array (Nat × TraceEvent) := #[]

/-- **A blackboard on a stage.** -/
structure World (G : Type) where
  /-- The blackboard of the tree. -/
  board : Blackboard
  /-- The rest. -/
  stage : Stage G

namespace Stage

variable {G : Type}

/-- Change the game. -/
def mapGame (s : Stage G) (f : G → G) : Stage G := { s with game := f s.game }

/-- Tell something to whoever watches. -/
def notify (s : Stage G) (n : Notice) : Stage G := { s with notices := s.notices.push n }

/-- Stream an event to a receiver. -/
def stream (s : Stage G) (receiver : TraceStream) (e : TraceEvent) : Stage G :=
  match receiver with
  | .discard => s
  | .receiver i => { s with streamed := s.streamed.push (i, e) }

/-- Telling somebody something leaves the game alone. -/
@[simp] theorem game_notify (s : Stage G) (n : Notice) : (s.notify n).game = s.game := rfl

/-- Passing on an event leaves the game alone. -/
@[simp] theorem game_stream (s : Stage G) (r : TraceStream) (e : TraceEvent) :
    (s.stream r e).game = s.game := by cases r <;> rfl

end Stage

namespace World

variable {G : Type}

/-- The game's own state. -/
def game (w : World G) : G := w.stage.game

/-- Change the game. -/
def mapGame (w : World G) (f : G → G) : World G := { w with stage := w.stage.mapGame f }

/-- Tell something to whoever watches. -/
def notify (w : World G) (n : Notice) : World G := { w with stage := w.stage.notify n }

/-- Whether anybody asks for trace events. -/
def tracing (b : Blackboard) : Bool := b.contains Keys.traceLog || b.contains Keys.traceStream

/-- **Record a trace event**: in the log on the blackboard, if there is one, and with the receiver
named there, if there is one. -/
def emit (w : World G) (e : TraceEvent) : World G where
  board := w.board.modify Keys.traceLog (·.push e)
  stage :=
    match w.board.get? Keys.traceStream with
    | some receiver => w.stage.stream receiver e
    | none => w.stage

/-- The game after a change of it. -/
@[simp] theorem game_mapGame (w : World G) (f : G → G) : (w.mapGame f).game = f w.game := rfl

/-- A change of the game leaves the blackboard alone. -/
@[simp] theorem board_mapGame (w : World G) (f : G → G) : (w.mapGame f).board = w.board := rfl

/-- Telling somebody something leaves the blackboard alone. -/
@[simp] theorem board_notify (w : World G) (n : Notice) : (w.notify n).board = w.board := rfl

/-- Recording an event does not touch the game. -/
@[simp] theorem game_emit (w : World G) (e : TraceEvent) : (w.emit e).game = w.game := by
  unfold emit game
  dsimp only
  split <;> simp

end World

end Instinct
