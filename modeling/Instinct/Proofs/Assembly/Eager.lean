import Instinct.Assembly

/-! # Building a tree at once

The builder that hides nothing: every node is put in its place as soon as it is declared. What is
open is the beginning of the last branch of the tree, so it is enough to count.

* **`Node.updateAt k f n`** — the node with `f` done to the node at depth `k` of its last branch.
* **`EagerAssembly G`** — a tree under construction in which every node is in its place.
* **`EagerAssembly.treeOf`** — the tree that declarations describe, or the first error. -/

namespace Instinct

namespace Node

variable {G : Type}

/-- **Take a child**, if there is room for one. -/
def accept (n child : Node G) : Except BuildError (Node G) :=
  if n.hasRoom then n.attach child else .error (Assembly.refusal n)

/-- A node with another last child. -/
def withLast (n new : Node G) : Node G :=
  match n with
  | composite title c children => composite title c (children.dropLast ++ [new])
  | decorator title d child => decorator title d (child.map fun _ => new)
  | leaf title l => leaf title l
  | patterns title s => patterns title s
  | custom c children => custom c (children.dropLast ++ [new])

/-- **Do something to a node of the last branch**: to the node itself at depth zero, and below that
to its last child. -/
def updateAt : (depth : Nat) → (Node G → Except BuildError (Node G)) → Node G →
    Except BuildError (Node G)
  | 0, f, n => f n
  | depth + 1, f, n =>
    match n.children.getLast? with
    | some c => (updateAt depth f c).map fun c => n.withLast c
    | none => .ok n

end Node

/-- **A tree under construction in which every node is in its place.** -/
structure EagerAssembly (G : Type) where
  root : Option (Node G) := none
  /-- How many nodes are open, from the root along the last branch. -/
  depth : Nat := 0
  /-- Whether a leaf was declared last. -/
  leafLast : Bool := false
  /-- The first error. -/
  error : Option BuildError := none
  /-- What the streams of random choices are derived from. -/
  salt : UInt64 := 0
  /-- How many streams were handed out. -/
  streams : UInt64 := 0

namespace EagerAssembly

variable {G : Type}

/-- Do something to the node at a depth of the last branch. -/
def change (e : EagerAssembly G) (depth : Nat) (f : Node G → Except BuildError (Node G)) :
    EagerAssembly G :=
  match e.root with
  | none => e
  | some root =>
    match root.updateAt depth f with
    | .ok root => { e with root := some root }
    | .error err => { e with error := some err }

/-- **Put a node in its place**: behind the children of the innermost open node, or at the root. -/
def place (e : EagerAssembly G) (n : Node G) : EagerAssembly G :=
  match e.root, e.depth with
  | none, _ => { e with root := some n }
  | some root, 0 => { e with error := some (.multipleRoots root.name) }
  | some _, depth + 1 => e.change depth fun top => top.accept n

/-- Declare a node, which is then open if it takes children. -/
def add (e : EagerAssembly G) (n : Node G) : EagerAssembly G :=
  match n.arity with
  | .none => { e.place n with leafLast := true }
  | .one | .many => { e.place n with depth := e.depth + 1, leafLast := false }

/-- Close the innermost open node, which has all its children now. -/
def close (e : EagerAssembly G) : EagerAssembly G :=
  match e.depth with
  | 0 => { e with error := some .unbalancedEnd }
  | depth + 1 =>
    { e.change depth fun n => n.finish.map fun _ => n with depth, leafLast := false }

/-- Name the leaf declared last, or else the innermost open node, or the root. -/
def rename (e : EagerAssembly G) (title : String) : EagerAssembly G :=
  e.change (if e.leafLast then e.depth else e.depth - 1) fun n => .ok (n.rename title)

/-- **Take in one declaration.** After an error declarations have no effect. -/
def declare (e : EagerAssembly G) (d : Declaration G) : EagerAssembly G :=
  if e.error.isSome then e
  else
    let stream := deriveSeed e.salt 0 (e.streams + 1)
    let drawn := { e with streams := e.streams + 1 }
    match d with
    | .node n => e.add n
    | .random => drawn.add (.composite none (.random { stream }) [])
    | .weighted ws => drawn.add (.composite none (.weighted (some ws) { stream }) [])
    | .name title => e.rename title
    | .close => e.close

/-- Close so many open nodes, up to the first error. -/
def closeAll : (count : Nat) → EagerAssembly G → EagerAssembly G
  | 0, e => e
  | count + 1, e => if e.error.isSome then e else closeAll count e.close

/-- The tree that is declared, or the first error. -/
def result (e : EagerAssembly G) : Except BuildError (Tree (Node G)) :=
  match e.error, e.root with
  | some err, _ => .error err
  | none, some root => .ok { root }
  | none, none => .error .noRoot

/-- Close what is open and hand out the tree, or the first error. -/
def build (e : EagerAssembly G) : Except BuildError (Tree (Node G)) :=
  (closeAll e.depth e).result

/-- **The tree that a list of declarations describes**, or the first error. -/
def treeOf (e : EagerAssembly G) (ds : List (Declaration G)) :
    Except BuildError (Tree (Node G)) := (ds.foldl declare e).build

end EagerAssembly

end Instinct
