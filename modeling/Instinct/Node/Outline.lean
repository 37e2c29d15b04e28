import Instinct.Node
import Instinct.Text.Quoted

/-! # Outlines: trees as shown to a reader

* **`Outline`** — kind, name and children of every node, and nothing else.
* **`Node.outline`** — the outline of a node. The trees of patterns are not shown.
* **`Outline.lines`** — the nodes in order, each with its depth.
* **`Outline.render`** — one line for each node, two blanks for each level. -/

namespace Instinct

/-- **What is shown of a node.** -/
inductive Outline where
  | node (kind : Kind) (name : String) (children : List Outline)

namespace Outline

/-- One node as shown: its kind, and its name in parentheses if it has one of its own. -/
def label (kind : Kind) (name : String) : String :=
  if name = kind.name then kind.name else kind.name ++ "(" ++ name ++ ")"

mutual

/-- **The nodes in order**, each with its depth and its label. -/
def lines (depth : Nat) : Outline → List (Nat × String)
  | node kind name children => (depth, label kind name) :: linesOfAll (depth + 1) children

/-- The nodes of a list of outlines in order. -/
def linesOfAll (depth : Nat) : List Outline → List (Nat × String)
  | [] => []
  | o :: os => lines depth o ++ linesOfAll depth os

end

/-- One line of text. -/
def renderLine (line : Nat × String) : String :=
  String.ofList (List.replicate (2 * line.1) ' ') ++ line.2 ++ "\n"

/-- **The outline as text.** -/
def render (o : Outline) : String := String.join ((o.lines 0).map renderLine)

end Outline

namespace Node

variable {G : Type}

mutual

/-- **The outline of a node.** -/
def outline : Node G → Outline
  | composite title c children => .node c.kind (title.getD c.kind.name) (outlines children)
  | decorator title d child => .node d.kind (title.getD d.kind.name) (outlineOption child)
  | leaf title l => .node l.kind (title.getD l.kind.name) []
  | patterns title _ => .node .custom (title.getD "AttackPatterns") []
  | custom c children => .node .custom c.name (outlines children)

/-- The outlines of a list of nodes. -/
def outlines : List (Node G) → List Outline
  | [] => []
  | n :: ns => outline n :: outlines ns

/-- The outline of a node that may be there. -/
def outlineOption : Option (Node G) → List Outline
  | none => []
  | some n => [outline n]

end

/-- The outline of a node as text. -/
def describe (n : Node G) : String := n.outline.render

end Node

end Instinct
