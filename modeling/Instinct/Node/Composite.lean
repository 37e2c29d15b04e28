import Instinct.Machine

/-! # Composites: nodes that combine several children

* **Sequence** and **selector** walk over their children in order and resume at the one that is
  still running. They differ only in the status that moves them on (`walk`).
* **Parallel** ticks every child every time and counts (`Policy`).
* **Random** and **weighted selector** commit to one child until it is done (`Draws`). The weighted
  choice itself, `pickWeighted`, is written over any kind of number.

A composite's own memory is a `Composite`; its children are kept beside it. -/

namespace Instinct

/-- **How many children of a parallel have to succeed in one tick.** -/
inductive Policy where
  | requireOne
  | requireAll
  | requireMajority
deriving DecidableEq

instance : Inhabited Policy := ⟨.requireAll⟩

namespace Policy

/-- The number of successes that a policy asks for among `n` children; half of them, rounded up,
are a majority. -/
def required : Policy → Nat → Nat
  | requireOne, _ => 1
  | requireAll, n => n
  | requireMajority, n => (n + 1) / 2

/-- The name of a policy. -/
def name : Policy → String
  | requireOne => "RequireOne"
  | requireAll => "RequireAll"
  | requireMajority => "RequireMajority"

/-- **The verdict on one tick** of `n` children. It is a failure as soon as more of them failed than
may fail; one success out of no children can never be had. -/
def verdict (p : Policy) (n successes failures : Nat) : Status :=
  if p.required n ≤ successes then .success
  else if n < failures + p.required n then .failure
  else .running

end Policy

/-- **The draws of a random choice.** Draws are counted over the whole life of the node, so that no
draw number is used twice. -/
structure Draws where
  /-- The draw site. -/
  stream : UInt64 := 0
  /-- Choices made so far. A reset does not forget them. -/
  count : UInt64 := 0
  /-- The child that was chosen and is not done yet. -/
  chosen : Option Nat := none
deriving DecidableEq, Inhabited

namespace Draws

/-- Let go of the chosen child. -/
def release (d : Draws) : Draws := { d with chosen := none }

/-- The random source of the next choice. -/
def generator (d : Draws) (frame : Frame) : Generator := frame.drawGenerator d.stream d.count

/-- Commit to a child by a fresh choice. -/
def commit (d : Draws) (index : Nat) : Draws :=
  { d with count := d.count + 1, chosen := some index }

end Draws

/-! ## The weighted choice -/

section Weighted

variable {α : Type} [Add α] [Sub α] [Mul α] [OfNat α 0] [LT α] [DecidableLT α]

/-- Go along the weights and take each one off the draw, until the draw is below the next one. -/
def pickBelow : List α → α → Option Nat
  | [], _ => none
  | w :: ws, draw => if draw < w then some 0 else (pickBelow ws (draw - w)).map (· + 1)

/-- The last index with a positive weight. -/
def lastPositive : List α → Option Nat
  | [] => none
  | w :: ws =>
    match lastPositive ws with
    | some i => some (i + 1)
    | none => if 0 < w then some 0 else none

/-- The sum of the weights, added up from the left. -/
def weightTotal (ws : List α) : α := ws.foldl (· + ·) 0

/-- **The index that a number in `[0, 1)` stands for**, each index having a share of the interval in
proportion to its weight. Where rounding carries the draw past the end, the last index with a weight
is taken. -/
def pickWeighted (ws : List α) (unit : α) : Nat :=
  match pickBelow ws (unit * weightTotal ws) with
  | some i => i
  | none => (lastPositive ws).getD (ws.length - 1)

end Weighted

/-- A choice among `count` children that are all alike. -/
def pickUniform (count : Nat) (g : Generator) : Nat :=
  (g.nextIndex (UInt64.ofNat count)).1.toNat

/-- The choice among `count` children: by the weights if there is one for each child and their sum
is positive, otherwise all alike. -/
def pickChild (weights : Option (List Float32)) (count : Nat) (g : Generator) : Nat :=
  match weights with
  | some ws =>
    if ws.length = count ∧ 0 < weightTotal ws then pickWeighted ws g.nextUnit.1
    else pickUniform count g
  | none => pickUniform count g

/-! ## Walking over children in order -/

/-- What a walk over children leaves behind. -/
structure Walk (N G : Type) where
  /-- The status of the last child ticked, or the one that moves on if there was none. -/
  status : Status
  /-- How many children were passed. -/
  passed : Nat
  /-- The children after the walk. -/
  children : List N
  /-- The world after the walk. -/
  world : World G

/-- **Walk over children in order**, on to the next one as long as they report `goOn`. -/
def walk {N G : Type} (m : Machine N G) (goOn : Status) (frame : Frame) :
    List N → World G → Walk N G
  | [], w => ⟨goOn, 0, [], w⟩
  | c :: cs, w =>
    let o := m.tick frame c w
    if o.status = goOn then
      let rest := walk m goOn frame cs o.world
      ⟨rest.status, rest.passed + 1, o.node :: rest.children, rest.world⟩
    else ⟨o.status, 0, o.node :: cs, o.world⟩

/-- Where there are no children the walk ends at once, with the status that moves on. -/
@[simp] theorem walk_nil {N G : Type} (m : Machine N G) (goOn : Status) (frame : Frame)
    (w : World G) : walk m goOn frame [] w = ⟨goOn, 0, [], w⟩ := rfl

/-! ## Composites -/

/-- **A composite's own memory.** -/
inductive Composite where
  /-- Runs its children in order and fails with the first that fails; `cursor` is the child to tick
  next. -/
  | sequence (cursor : Nat)
  /-- Tries its children in order and succeeds with the first that succeeds. -/
  | selector (cursor : Nat)
  /-- Ticks all children each time. -/
  | parallel (policy : Policy)
  /-- Commits to one child, all being alike. -/
  | random (draws : Draws)
  /-- Commits to one child in proportion to weights. -/
  | weighted (weights : Option (List Float32)) (draws : Draws)
deriving DecidableEq

namespace Composite

/-- What a composite is. -/
def kind : Composite → Kind
  | sequence _ => .sequence
  | selector _ => .selector
  | parallel _ => .parallel
  | random _ => .randomSelector
  | weighted _ _ => .weightedSelector

/-- The memory after a reset: the cursor at the first child and no child chosen. -/
def reset : Composite → Composite
  | sequence _ => sequence 0
  | selector _ => selector 0
  | parallel policy => parallel policy
  | random d => random d.release
  | weighted ws d => weighted ws d.release

/-- A second reset changes nothing. -/
@[simp] theorem reset_reset (c : Composite) : c.reset.reset = c.reset := by cases c <;> rfl

variable {N G : Type}

/-- A composite, its children and the world after all of them are reset. -/
def conclude (m : Machine N G) (c : Composite) (children : List N) (status : Status)
    (w : World G) : Outcome (Composite × List N) G :=
  ⟨status, (c.reset, children.map m.reset), w.mapGame (m.onResetAll children)⟩

/-- One tick of a composite that walks over its children: `make` is the composite at a cursor. -/
def tickInOrder (m : Machine N G) (make : Nat → Composite) (goOn : Status) (frame : Frame)
    (cursor : Nat) (children : List N) (w : World G) : Outcome (Composite × List N) G :=
  let r := walk m goOn frame (children.drop cursor) w
  let children' := children.take cursor ++ r.children
  if r.status = .running then ⟨.running, (make (cursor + r.passed), children'), r.world⟩
  else conclude m (make 0) children' r.status r.world

/-- One tick of a parallel: every child is ticked, then the statuses are counted. -/
def tickParallel (m : Machine N G) (policy : Policy) (frame : Frame) (children : List N)
    (w : World G) : Outcome (Composite × List N) G :=
  let (statuses, children', w') := m.tickAll frame children w
  match policy.verdict children.length (statuses.count .success) (statuses.count .failure) with
  | .running => ⟨.running, (parallel policy, children'), w'⟩
  | status => conclude m (parallel policy) children' status w'

/-- One tick of a composite that commits to a child: `pick` makes a fresh choice, `make` is the
composite with its draws. The children are not reset when the chosen one is done. -/
def tickChosen (m : Machine N G) (make : Draws → Composite) (pick : Generator → Nat)
    (frame : Frame) (d : Draws) (children : List N) (w : World G) :
    Outcome (Composite × List N) G :=
  if children.isEmpty then ⟨.failure, (make d, children), w⟩
  else
    let (index, d) :=
      match d.chosen with
      -- committed in an earlier tick, so nothing is drawn
      | some i => (i, d)
      | none => let i := pick (d.generator frame); (i, d.commit i)
    let o := m.tickAt frame index children w
    ⟨o.status, (make (if o.status.isDone then d.release else d), o.node), o.world⟩

/-- **One tick of a composite.** -/
def tick (m : Machine N G) (frame : Frame) (c : Composite) (children : List N) (w : World G) :
    Outcome (Composite × List N) G :=
  match c with
  | sequence cursor => tickInOrder m sequence .success frame cursor children w
  | selector cursor => tickInOrder m selector .failure frame cursor children w
  | parallel policy => tickParallel m policy frame children w
  | random d => tickChosen m random (pickUniform children.length) frame d children w
  | weighted ws d => tickChosen m (weighted ws) (pickChild ws children.length) frame d children w

end Composite

end Instinct
