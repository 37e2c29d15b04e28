import Instinct.Machine

/-! # Nodes of the game's own making

A game may bring nodes of its own. Such a node has children that it ticks one after the other; what
happens before and after, and what a reset does to the game, is up to the game. -/

namespace Instinct

/-- **A node of the game's own making.** -/
structure Custom (G : Type) where
  /-- The name, which cannot be changed. -/
  name : String
  /-- How many children the node takes, given how many it has. -/
  arity : Nat → Arity
  /-- Whether children can be attached at all. -/
  attachable : Bool
  /-- What happens before the children are ticked. -/
  enter : Frame → Blackboard → G → Blackboard × G
  /-- The status, from those of the children, in order. -/
  conclude : List Status → G → Status × G
  /-- What a reset does to the game, before the children are reset. -/
  onReset : G → G

namespace Custom

variable {N G : Type}

/-- **One tick of a node of the game's own making.** -/
def tick (m : Machine N G) (frame : Frame) (c : Custom G) (children : List N) (w : World G) :
    Outcome (List N) G :=
  let (board, game) := c.enter frame w.board w.game
  let w : World G := { board, stage := w.stage.mapGame fun _ => game }
  let (statuses, children, w) := m.tickAll frame children w
  let (status, game) := c.conclude statuses w.game
  ⟨status, children, w.mapGame fun _ => game⟩

end Custom

end Instinct
