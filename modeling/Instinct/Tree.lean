import Instinct.Machine

/-! # Trees: a root with a blackboard of its own

* **`Tree N`** — the unit that is ticked from outside: a root, its blackboard, the last status and
  the number of ticks.
* **`Tree.tick`** — one tick: the root is evaluated, the tick is recorded as a trace event, and a
  root that begins to fail is told about. -/

namespace Instinct

/-- **A root with a blackboard of its own.** -/
structure Tree (N : Type) where
  /-- The root. -/
  root : N
  /-- What the nodes read and write. -/
  board : Blackboard := .empty
  /-- The status of the last tick, unless there was none since the last reset. -/
  last : Option Status := none
  /-- How often the tree was ticked. -/
  ticks : UInt64 := 0
  /-- Whether a root that begins to fail is told about. -/
  warns : Bool := true

namespace Tree

variable {N G : Type}

/-- Tell about a root that begins to fail. -/
def warnIfFailing (m : Machine N G) (frame : Frame) (t : Tree N) (status : Status) (root : N)
    (w : World G) : World G :=
  if status = .failure ∧ t.last ≠ some .failure ∧ t.warns then
    w.notify (.rootFailed (m.name root) frame.tick)
  else w

/-- The event that closes a tick. -/
def tickEvent (frame : Frame) (status : Status) : TraceEvent :=
  { tick := frame.tick, tag := treeTickTag, a := status.code }

/-- **One tick of a tree.** -/
def tick (m : Machine N G) (frame : Frame) (t : Tree N) (s : Stage G) :
    Status × Tree N × Stage G :=
  let o := m.tick frame t.root { board := t.board, stage := s }
  let w := t.warnIfFailing m frame o.status o.node (o.world.emit (tickEvent frame o.status))
  (o.status,
    { t with root := o.node, board := w.board, last := some o.status, ticks := t.ticks + 1 },
    w.stage)

/-- The tree after a reset: every node forgets its unfinished run, the blackboard stays. -/
def reset (m : Machine N G) (t : Tree N) : Tree N :=
  { t with root := m.reset t.root, last := none }

/-- What a reset of the tree does to the game. -/
def onReset (m : Machine N G) (t : Tree N) (g : G) : G := m.onReset t.root g

end Tree

end Instinct
