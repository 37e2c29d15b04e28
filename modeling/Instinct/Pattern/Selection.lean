import Instinct.Pattern.Repertoire

/-! # Selection: a repertoire at work inside a tree

A leaf that drives a repertoire. While a pattern is running it is gone on with, whatever else has
become eligible; otherwise the best eligible pattern is started, and the leaf fails if there is
none.

* **`Selection N G`** — the leaf's own memory.
* **`Selection.tick`**, **`Selection.reset`** — the leaf as a machine. -/

namespace Instinct

/-- **The memory of a leaf that drives a repertoire.** -/
structure Selection (N G : Type) where
  /-- Whose patterns are driven. -/
  archetype : String
  /-- The patterns. -/
  repertoire : Repertoire N G
  /-- The pattern that is running. -/
  running : Option String := none
  /-- The pattern that was started last. -/
  lastChoice : Option String := none

namespace Selection

variable {N G : Type}

/-- The event that records a selection. -/
def selectEvent (frame : Frame) (label : Option String) : TraceEvent :=
  { tick := frame.tick, tag := patternSelectTag, label }

/-- The event that records a tick of a pattern. -/
def executeEvent (frame : Frame) (name : String) (status : Status) : TraceEvent :=
  { tick := frame.tick, tag := patternExecuteTag, label := some name, a := status.code }

/-- Take in what a tick of the pattern `name` gave. A pattern that is gone fails the leaf and is
told about. -/
def settle (sel : Selection N G) (frame : Frame) (name : String) (w : World G) :
    Except PatternError (Status × Repertoire N G × Stage G) → Outcome (Selection N G) G
  | .error e => ⟨.failure, { sel with running := none }, w.notify (.patternLost e)⟩
  | .ok (status, repertoire, stage) =>
    let running := if status.isRunning then some name else none
    ⟨status, { sel with repertoire, running },
      { w with stage }.emit (executeEvent frame name status)⟩

/-- **One tick of the leaf.** -/
def tick (m : Machine N G) (frame : Frame) (sel : Selection N G) (w : World G) :
    Outcome (Selection N G) G :=
  let s := Situation.ofBoard frame w.board
  match sel.running with
  | some name =>
    sel.settle frame name w (sel.repertoire.resume m sel.archetype name s w.stage)
  | none =>
    let (best, game) := sel.repertoire.select sel.archetype s w.game
    let w := w.mapGame fun _ => game
    match best with
    | none => ⟨.failure, sel, w.emit (selectEvent frame none)⟩
    | some p =>
      let w := w.emit (selectEvent frame (some p.name))
      let sel := { sel with lastChoice := some p.name }
      sel.settle frame p.name w (sel.repertoire.execute m sel.archetype p.name s w.stage)

/-- The memory after a reset: nothing is running, and the tree of the pattern that was is reset. -/
def reset (m : Machine N G) (sel : Selection N G) : Selection N G :=
  match sel.running with
  | some name =>
    { sel with
      running := none
      repertoire := sel.repertoire.modify sel.archetype name (·.reset m) }
  | none => sel

/-- What a reset does to the game. -/
def onReset (m : Machine N G) (sel : Selection N G) (g : G) : G :=
  match sel.running.bind (sel.repertoire.get? sel.archetype) with
  | some p => p.tree.onReset m g
  | none => g

end Selection

end Instinct
