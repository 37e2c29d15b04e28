import Instinct.Node

/-! # One function for each kind of node

Nodes as a game writes them down: fresh, without a title unless one is given. -/

namespace Instinct.Node

variable {G : Type}

/-! ## Composites -/

/-- A node that runs its children in order and fails with the first that fails. -/
def sequence (children : List (Node G)) : Node G := composite none (.sequence 0) children

/-- A node that tries its children in order and succeeds with the first that succeeds. -/
def selector (children : List (Node G)) : Node G := composite none (.selector 0) children

/-- A node that ticks all its children each time. -/
def parallel (policy : Policy) (children : List (Node G)) : Node G :=
  composite none (.parallel policy) children

/-- A node that commits to one child at random, drawing from a stream. -/
def randomSelector (stream : UInt64) (children : List (Node G)) : Node G :=
  composite none (.random { stream }) children

/-- A node that commits to one child in proportion to weights, drawing from a stream. -/
def weightedSelector (weights : Option (List Float32)) (stream : UInt64)
    (children : List (Node G)) : Node G :=
  composite none (.weighted weights { stream }) children

/-! ## Decorators -/

/-- A node that swaps the success and the failure of its child. -/
def inverter (child : Option (Node G)) : Node G := decorator none .inverter child

/-- A node that ticks its child and succeeds. -/
def succeeder (child : Option (Node G)) : Node G := decorator none .succeeder child

/-- A node that ticks its child and fails. -/
def failer (child : Option (Node G)) : Node G := decorator none .failer child

/-- A node that runs its child a number of times; a negative number means for ever. -/
def repeater (times : Int32) (child : Option (Node G)) : Node G :=
  decorator none (.repeating times) child

/-- A node that runs its child for ever. -/
def forever (child : Option (Node G)) : Node G := decorator none (.repeater none 0) child

/-- A node that runs a failing child again. -/
def retry (attempts : UInt32) (child : Option (Node G)) : Node G :=
  decorator none (.retrying attempts) child

/-- A node that fails a child that runs too long. -/
def timeout (limit : Duration) (child : Option (Node G)) : Node G :=
  decorator none (.timeout limit none) child

/-- A node that keeps its child from running for a while after it was done. -/
def cooldown (duration : Duration) (child : Option (Node G)) : Node G :=
  decorator none (.cooldown duration none) child

/-- A node that runs its child only while a test holds. -/
def conditional (title : String) (guard : Guard G) (child : Option (Node G)) : Node G :=
  decorator (some title) (.conditional guard) child

/-! ## Leaves -/

/-- A leaf that does what the game says. -/
def action (title : String) (deed : Deed G) : Node G := leaf (some title) (.action deed)

/-- A leaf that tests the present situation. -/
def condition (title : String) (test : Guard G) : Node G := leaf (some title) (.condition test)

/-- A leaf that runs for a while and then succeeds. -/
def wait (duration : Duration) : Node G := leaf none (.wait duration none)

/-- A leaf that always reports the same status. -/
def fixed (status : Status) : Node G := leaf none (.fixed status)

/-- A leaf that passes on a message. -/
def log (message : String) (level : Level) : Node G := leaf none (.log message level)

/-- A leaf that writes a slot. -/
def setValue (key : String) (source : ValueSource G) : Node G := leaf none (.setValue key source)

/-- A leaf that removes a slot. -/
def clearValue (key : String) : Node G := leaf none (.clearValue key)

/-- A leaf that drives the patterns of an archetype. -/
def patternsOf (archetype : String) (repertoire : Repertoire (Node G) G) : Node G :=
  patterns none { archetype, repertoire }

end Instinct.Node
