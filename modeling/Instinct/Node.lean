import Instinct.Node.Composite
import Instinct.Node.Leaf
import Instinct.Node.Custom
import Instinct.Pattern.Selection
import Instinct.Decimal.Layout

/-! # Nodes

* **`Node G`** — a node of a tree that acts on a game `G`, with all its children and everything that
  its subtree remembers.
* **`Node.layer`** — a node as a machine, given its children as machines.
* **`Node.machine`** — nodes as machines, level by level; **`Node.tick`** and **`Node.reset`** use
  as many levels as the node has.
* **`Node.attach`**, **`Node.finish`**, **`Node.rename`** — what building a tree needs. -/

namespace Instinct

/-- **A node of a tree.** A node without a title of its own bears the name of its kind. -/
inductive Node (G : Type) where
  /-- A node that combines several children. -/
  | composite (title : Option String) (memory : Composite) (children : List (Node G))
  /-- A node around one child, which may still be missing. -/
  | decorator (title : Option String) (memory : Decorator G) (child : Option (Node G))
  /-- A node without children. -/
  | leaf (title : Option String) (memory : Leaf G)
  /-- A leaf that drives a repertoire of patterns. -/
  | patterns (title : Option String) (memory : Selection (Node G) G)
  /-- A node of the game's own making. -/
  | custom (memory : Custom G) (children : List (Node G))

/-- **Why a tree could not be built.** -/
inductive BuildError where
  /-- Nothing was declared. -/
  | noRoot
  /-- A second node stands beside the root. -/
  | multipleRoots (existing : String)
  /-- A decorator was given a second child. -/
  | decoratorOccupied (decorator : String)
  /-- A node that takes no children was given one. -/
  | notAParent (node : String)
  /-- More nodes were closed than opened. -/
  | unbalancedEnd
  /-- The weights of a selector do not match its children. -/
  | weightCountMismatch (node : String) (weights children : Nat)
  /-- A weight is negative or not finite. -/
  | invalidWeight (node : String) (index : Nat) (weight : Float32)
deriving DecidableEq

/-- The error in words. -/
def BuildError.message : BuildError → String
  | noRoot => "behavior tree has no root node"
  | multipleRoots existing =>
    s!"a root node `{existing}` is already set; wrap siblings in a composite"
  | decoratorOccupied decorator => s!"decorator `{decorator}` already has a child"
  | notAParent node => s!"node `{node}` cannot have children"
  | unbalancedEnd => "`end()` called with no open composite or decorator"
  | weightCountMismatch node weights children =>
    s!"weighted selector `{node}` has {weights} weights for {children} children"
  | invalidWeight node index weight =>
    let text := Decimal.displayed weight
    s!"weighted selector `{node}` has invalid weight {text} at index {index}"

namespace Node

variable {G : Type}

/-- What a node is. -/
def kind : Node G → Kind
  | composite _ c _ => c.kind
  | decorator _ d _ => d.kind
  | leaf _ l => l.kind
  | patterns _ _ => .custom
  | custom _ _ => .custom

/-- The name of a node. -/
def name : Node G → String
  | composite title c _ => title.getD c.kind.name
  | decorator title d _ => title.getD d.kind.name
  | leaf title l => title.getD l.kind.name
  | patterns title _ => title.getD "AttackPatterns"
  | custom c _ => c.name

/-- Give a node another name. Nodes of the game's own making keep theirs. -/
def rename (title : String) : Node G → Node G
  | composite _ c children => composite (some title) c children
  | decorator _ d child => decorator (some title) d child
  | leaf _ l => leaf (some title) l
  | patterns _ s => patterns (some title) s
  | custom c children => custom c children

/-- The children of a node. The trees of patterns are not among them. -/
def children : Node G → List (Node G)
  | composite _ _ children => children
  | decorator _ _ child => child.toList
  | leaf _ _ => []
  | patterns _ _ => []
  | custom _ children => children

/-- How many children a node takes. -/
def arity : Node G → Arity
  | composite _ _ _ => .many
  | decorator _ _ _ => .one
  | leaf _ _ => .none
  | patterns _ _ => .none
  | custom c children => c.arity children.length

/-- Whether a node has room for another child. -/
def hasRoom (n : Node G) : Bool := n.arity.hasRoom n.children.length

/-- **Attach a child** behind the children that a node has. -/
def attach (n : Node G) (child : Node G) : Except BuildError (Node G) :=
  match n with
  | composite title c children => .ok (composite title c (children ++ [child]))
  | decorator title d none => .ok (decorator title d (some child))
  | decorator _ _ (some _) => .error (.decoratorOccupied n.name)
  | custom c children =>
    if c.attachable then .ok (custom c (children ++ [child])) else .error (.notAParent n.name)
  | leaf _ _ => .error (.notAParent n.name)
  | patterns _ _ => .error (.notAParent n.name)

/-- The first weight that is negative or not finite, with its index. -/
def firstInvalidWeight (ws : List Float32) : Option (Nat × Float32) :=
  (ws.zipIdx.find? fun w => !w.1.isFinite || w.1 < 0).map fun w => (w.2, w.1)

/-- **Check a node once it has all its children**: a selector with weights needs one for each child,
finite and not negative. -/
def finish (n : Node G) : Except BuildError Unit :=
  match n with
  | composite _ (.weighted (some ws) _) children =>
    if ws.length ≠ children.length then
      .error (.weightCountMismatch n.name ws.length children.length)
    else
      match firstInvalidWeight ws with
      | some (index, weight) => .error (.invalidWeight n.name index weight)
      | none => .ok ()
  | _ => .ok ()

/-! ## Nodes as machines -/

/-- One tick of a node, given its children as machines. -/
def tickLayer (m : Machine (Node G) G) (frame : Frame) (n : Node G) (w : World G) :
    Outcome (Node G) G :=
  match n with
  | composite title c children =>
    (c.tick m frame children w).map fun r => composite title r.1 r.2
  | decorator title d child => (d.tick m frame child w).map fun r => decorator title r.1 r.2
  | leaf title l => (l.tick frame w).map (leaf title)
  | patterns title s => (s.tick m frame w).map (patterns title)
  | custom c children => (c.tick m frame children w).map (custom c)

/-- A node after a reset, given its children as machines. -/
def resetLayer (m : Machine (Node G) G) : Node G → Node G
  | composite title c children => composite title c.reset (children.map m.reset)
  | decorator title d child => decorator title d.reset (child.map m.reset)
  | leaf title l => leaf title l.reset
  | patterns title s => patterns title (s.reset m)
  | custom c children => custom c (children.map m.reset)

/-- What the reset of a node does to the game, given its children as machines. -/
def onResetLayer (m : Machine (Node G) G) (n : Node G) (g : G) : G :=
  match n with
  | composite _ _ children => m.onResetAll children g
  | decorator _ _ child => m.onResetOption child g
  | leaf _ _ => g
  | patterns _ s => s.onReset m g
  | custom c children => m.onResetAll children (c.onReset g)

/-- **A node as a machine**, given its children as machines. -/
def layer (m : Machine (Node G) G) : Machine (Node G) G where
  tick := tickLayer m
  reset := resetLayer m
  onReset := onResetLayer m
  name := name

/-- **Nodes as machines**, as far as `levels` levels of nodes reach. -/
def machine : (levels : Nat) → Machine (Node G) G
  | 0 => { Machine.inert with name := name }
  | levels + 1 => layer (machine levels)

/-! ## The levels of a node

The trees of patterns count as lying below the leaf that drives them. -/

mutual

/-- The number of levels of a node. -/
def levels : Node G → Nat
  | composite _ _ children => levelsOfAll children + 1
  | decorator _ _ child => levelsOfOption child + 1
  | leaf _ _ => 1
  | patterns _ s => levelsOfSelection s + 1
  | custom _ children => levelsOfAll children + 1

/-- The largest number of levels in a list of nodes. -/
def levelsOfAll : List (Node G) → Nat
  | [] => 0
  | n :: ns => max (levels n) (levelsOfAll ns)

/-- The number of levels of a node that may be there. -/
def levelsOfOption : Option (Node G) → Nat
  | none => 0
  | some n => levels n

/-- The largest number of levels among the patterns of a leaf. -/
def levelsOfSelection : Selection (Node G) G → Nat
  | ⟨_, r, _, _⟩ => levelsOfRepertoire r

/-- The largest number of levels in a repertoire. -/
def levelsOfRepertoire : Repertoire (Node G) G → Nat
  | ⟨groups⟩ => levelsOfGroups groups

/-- The largest number of levels among groups of patterns. -/
def levelsOfGroups : NameMap.Raw (List (Pattern (Node G) G)) → Nat
  | ⟨entries⟩ => levelsOfEntries entries

/-- The largest number of levels among named groups of patterns. -/
def levelsOfEntries : List (String × List (Pattern (Node G) G)) → Nat
  | [] => 0
  | e :: es => max (levelsOfEntry e) (levelsOfEntries es)

/-- The largest number of levels in a named group of patterns. -/
def levelsOfEntry : String × List (Pattern (Node G) G) → Nat
  | (_, ps) => levelsOfPatterns ps

/-- The largest number of levels in a list of patterns. -/
def levelsOfPatterns : List (Pattern (Node G) G) → Nat
  | [] => 0
  | p :: ps => max (levelsOfPattern p) (levelsOfPatterns ps)

/-- The number of levels of a pattern. -/
def levelsOfPattern : Pattern (Node G) G → Nat
  | ⟨_, t, _, _, _, _⟩ => levelsOfTree t

/-- The number of levels of a tree. -/
def levelsOfTree : Tree (Node G) → Nat
  | ⟨root, _, _, _, _⟩ => levels root

end

/-! ## Ticks and resets -/

/-- **One tick of a node.** -/
def tick (frame : Frame) (n : Node G) (w : World G) : Outcome (Node G) G :=
  (machine n.levels).tick frame n w

/-- **The node after a reset**: cursors, timers, chosen children and counts of the whole subtree are
dropped. -/
def reset (n : Node G) : Node G := (machine n.levels).reset n

/-- What a reset does to the game. Only nodes of the game's own making do anything. -/
def onReset (n : Node G) (g : G) : G := (machine n.levels).onReset n g

/-- **Nodes as machines**, of any number of levels. -/
def asMachine : Machine (Node G) G where
  tick := tick
  reset := reset
  onReset := onReset
  name := name

end Node

end Instinct
