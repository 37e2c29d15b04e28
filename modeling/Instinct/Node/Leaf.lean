import Instinct.Node.Decorator

/-! # Leaves: nodes without children

Callbacks of the game, timers, constants, messages and edits of the blackboard. A leaf's own memory
is a `Leaf G`. -/

namespace Instinct

/-- What an action of the game does: it reports a status and may change the blackboard and the
game. -/
abbrev Deed (G : Type) := Frame → Blackboard → G → Status × Blackboard × G

/-- Where a value to be written comes from. -/
inductive ValueSource (G : Type) where
  /-- Always the same value. -/
  | constant (value : Value)
  /-- Computed anew each time. -/
  | computed (compute : Frame → Blackboard → G → Value × G)

/-- **A leaf's own memory.** -/
inductive Leaf (G : Type) where
  /-- Does what the game says and reports its status as it is. -/
  | action (deed : Deed G)
  /-- Succeeds if the test holds and fails otherwise. -/
  | condition (test : Guard G)
  /-- Runs for `duration` from its first tick, `started`, and then succeeds. -/
  | wait (duration : Duration) (started : Option Duration)
  /-- Always reports the same status. -/
  | fixed (status : Status)
  /-- Passes on a message and succeeds. -/
  | log (message : String) (level : Level)
  /-- Writes a slot and succeeds. -/
  | setValue (key : String) (source : ValueSource G)
  /-- Removes a slot, if it is there, and succeeds. -/
  | clearValue (key : String)

namespace Leaf

variable {G : Type}

/-- What a leaf is. -/
def kind : Leaf G → Kind
  | action _ => .action
  | condition _ => .condition
  | wait _ _ => .wait
  | fixed .success => .success
  | fixed .failure => .failure
  | fixed .running => .running
  | log _ _ => .log
  | setValue _ _ => .setValue
  | clearValue _ => .clearValue

/-- The memory after a reset: no wait is under way. -/
def reset : Leaf G → Leaf G
  | wait duration _ => wait duration none
  | l => l

/-- A second reset changes nothing. -/
@[simp] theorem reset_reset (l : Leaf G) : l.reset.reset = l.reset := by cases l <;> rfl

/-- **One tick of a leaf.** The tick that starts a wait never ends it. -/
def tick (frame : Frame) (l : Leaf G) (w : World G) : Outcome (Leaf G) G :=
  match l with
  | action deed =>
    let (status, board, game) := deed frame w.board w.game
    ⟨status, l, { board, stage := w.stage.mapGame fun _ => game }⟩
  | condition test =>
    let (holds, game) := test frame w.board w.game
    ⟨.ofBool holds, l, w.mapGame fun _ => game⟩
  -- the first tick only starts the clock, even where there is no time to wait
  | wait duration none => ⟨.running, wait duration (some frame.now), w⟩
  | wait duration (some started) =>
    if duration ≤ frame.elapsedSince started then ⟨.success, wait duration none, w⟩
    else ⟨.running, l, w⟩
  | fixed status => ⟨status, l, w⟩
  | log message level => ⟨.success, l, w.notify (.message level message frame.tick)⟩
  | setValue key (.constant value) =>
    ⟨.success, l, { w with board := w.board.put key value }⟩
  | setValue key (.computed compute) =>
    let (value, game) := compute frame w.board w.game
    ⟨.success, l,
      { board := w.board.put key value, stage := w.stage.mapGame fun _ => game }⟩
  | clearValue key => ⟨.success, l, { w with board := w.board.removeName key }⟩

end Leaf

end Instinct
