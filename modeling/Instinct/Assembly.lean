import Instinct.Node

/-! # Assembly: building a tree declaration by declaration

A tree is declared in the order in which it is read: a node that takes children is opened, its
children follow, and it is closed; a leaf belongs to the innermost open node.

* **`Assembly G`** — a tree under construction.
* **`Declaration G`** — one call: a node, a random or weighted selector with a stream of its own, a
  name for what was declared last, or the close of the innermost open node.
* **`Assembly.build`** — close what is open and hand out the tree, or the first error. -/

namespace Instinct

/-- **A tree under construction.** -/
structure Assembly (G : Type) where
  /-- The open nodes, the innermost first. -/
  opened : List (Node G) := []
  /-- The leaf declared last, held back so that it can still be named. -/
  staged : Option (Node G) := none
  root : Option (Node G) := none
  /-- The first error. -/
  error : Option BuildError := none
  /-- What the streams of random choices are derived from. -/
  salt : UInt64 := 0
  /-- How many streams were handed out. They are never handed out again. -/
  streams : UInt64 := 0

/-- **One declaration.** -/
inductive Declaration (G : Type) where
  /-- A node: opened if it takes children, attached otherwise. -/
  | node (n : Node G)
  /-- A random selector on the next stream. -/
  | random
  /-- A weighted selector on the next stream. -/
  | weighted (weights : List Float32)
  /-- A name for the leaf declared last, or else for the innermost open node, or the root. -/
  | name (title : String)
  /-- The end of the innermost open node. -/
  | close

namespace Assembly

variable {G : Type}

/-- Nothing declared, streams derived from a salt. -/
def withSalt (salt : UInt64) : Assembly G := { salt }

/-- The number of open nodes. -/
def depth (a : Assembly G) : Nat := a.opened.length

/-- Note an error, unless there is one already. -/
def fail (a : Assembly G) (e : BuildError) : Assembly G :=
  { a with error := some (a.error.getD e) }

/-- Why a node without room cannot take a child. -/
def refusal (n : Node G) : BuildError :=
  match n.arity with
  | .none => .notAParent n.name
  | .one | .many => .decoratorOccupied n.name

/-- **Put a finished node in its place**: behind the children of the innermost open node, or at the
root. -/
def place (a : Assembly G) (n : Node G) : Assembly G :=
  match a.opened with
  | top :: rest =>
    if top.hasRoom then
      match top.attach n with
      | .ok top => { a with opened := top :: rest }
      | .error e => a.fail e
    else a.fail (refusal top)
  | [] =>
    match a.root with
    | some root => a.fail (.multipleRoots root.name)
    | none => { a with root := some n }

/-- Put the leaf declared last in its place. -/
def flush (a : Assembly G) : Assembly G :=
  match a.staged with
  | some leaf =>
    let a := { a with staged := none }
    if a.error.isNone then a.place leaf else a
  | none => a

/-- Open a node: there has to be room for it, though it is put in its place only when it is
closed. -/
def openNode (a : Assembly G) (n : Node G) : Assembly G :=
  match a.opened with
  | top :: _ => if top.hasRoom then { a with opened := n :: a.opened } else a.fail (refusal top)
  | [] =>
    match a.root with
    | some root => a.fail (.multipleRoots root.name)
    | none => { a with opened := [n] }

/-- Declare a node. After an error declarations have no effect. -/
def add (a : Assembly G) (n : Node G) : Assembly G :=
  if a.error.isSome then a
  else
    let a := a.flush
    if a.error.isSome then a
    else
      match n.arity with
      | .none => { a with staged := some n }
      | .one | .many => a.openNode n

/-- Close the innermost open node. -/
def close (a : Assembly G) : Assembly G :=
  if a.error.isSome then a
  else
    let a := a.flush
    match a.opened with
    | n :: rest =>
      let a := { a with opened := rest }
      match n.finish with
      | .ok () => a.place n
      | .error e => a.fail e
    | [] => a.fail .unbalancedEnd

/-- Name the leaf declared last, or else the innermost open node, or the root. -/
def rename (a : Assembly G) (title : String) : Assembly G :=
  match a.staged, a.opened, a.root with
  | some leaf, _, _ => { a with staged := some (leaf.rename title) }
  | none, top :: rest, _ => { a with opened := top.rename title :: rest }
  | none, [], some root => { a with root := some (root.rename title) }
  | none, [], none => a

/-- Hand out the next stream. -/
def nextStream (a : Assembly G) : UInt64 × Assembly G :=
  let streams := a.streams + 1
  (deriveSeed a.salt 0 streams, { a with streams })

/-- **Take in one declaration.** A stream is handed out even if the declaration has no effect. -/
def declare (a : Assembly G) : Declaration G → Assembly G
  | .node n => a.add n
  | .random =>
    let (stream, a) := a.nextStream
    a.add (.composite none (.random { stream }) [])
  | .weighted ws =>
    let (stream, a) := a.nextStream
    a.add (.composite none (.weighted (some ws) { stream }) [])
  | .name title => a.rename title
  | .close => a.close

/-- Close open nodes up to a number of them, as long as there is no error. -/
def closeOpen : (count : Nat) → Assembly G → Assembly G
  | 0, a => a
  | count + 1, a =>
    if a.error.isNone && !a.opened.isEmpty then closeOpen count a.close else a

/-- What is left after a build: the salt and the count of streams. -/
def afresh (a : Assembly G) : Assembly G := { salt := a.salt, streams := a.streams }

/-- The tree that is declared, or the first error. -/
def result (a : Assembly G) : Except BuildError (Tree (Node G)) :=
  match a.error, a.root with
  | some e, _ => .error e
  | none, some root => .ok { root }
  | none, none => .error .noRoot

/-- **Close what is open and hand out the tree**, or the first error. The assembly can be used
again. -/
def build (a : Assembly G) : Except BuildError (Tree (Node G)) × Assembly G :=
  let a := a.flush
  let a := closeOpen a.opened.length a
  (a.result, a.afresh)

/-- Take in declarations one after the other. -/
def declareAll (a : Assembly G) (ds : List (Declaration G)) : Assembly G := ds.foldl declare a

/-- The tree that a list of declarations describes. -/
def treeOf (a : Assembly G) (ds : List (Declaration G)) : Except BuildError (Tree (Node G)) :=
  (a.declareAll ds).build.1

end Assembly

end Instinct
