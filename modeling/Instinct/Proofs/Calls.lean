import Instinct.Proofs.Embedding
import Instinct.Proofs.Throughout
import Mathlib.Logic.Relation

/-! # The ticks within a tick

A child is watched by keeping a record of its ticks beside it. A node knows nothing of its children,
so it does with watched ones what it does with the children themselves, and their records tell which
of them it has ticked.

* **`Call N G`** — a tick that was made: what was ticked, in which frame and which world.
* **`Machine.watched`** — machines that are watched; **`Machine.embeds_watched`** — watching changes
  nothing.
* **`Composite.calls`**, **`Decorator.calls`** — the ticks of the children within one tick.
* **`Decorator.run_watched`** — the run of a decorator, with a record of the ticks of its child.
* **`Node.Within a b`** — the tick `b` was made within the tick `a`.
* **`Node.Within.everywhere`** — what is kept throughout a node holds of all that is ticked. -/

namespace Instinct

variable {N G : Type}

/-- **A tick that was made**: what was ticked, in which frame and which world. -/
structure Call (N G : Type) where
  frame : Frame
  node : N
  world : World G

/-- What the tick came to. -/
def Call.outcome (m : Machine N G) (a : Call N G) : Outcome N G := m.tick a.frame a.node a.world

/-! ## (1) Machines that are watched -/

namespace Machine

/-- **Machines that are watched**, each with a record of its ticks, oldest first. -/
def watched (m : Machine N G) : Machine (N × List (Call N G)) G where
  tick f n w := (m.tick f n.1 w).map fun n' => (n', n.2 ++ [⟨f, n.1, w⟩])
  reset n := (m.reset n.1, n.2)
  onReset n := m.onReset n.1
  name n := m.name n.1

/-- A machine of which nothing is recorded yet. -/
def unrecorded (n : N) : N × List (Call N G) := (n, [])

variable {m : Machine N G} {P : N → Prop}

/-- **Watching changes nothing.** -/
theorem embeds_watched (m : Machine N G) : m.watched.Embeds m Prod.fst where
  tick _ _ _ := rfl
  reset _ := rfl
  onReset _ := rfl

/-- Children with nothing written down are the children. -/
theorem map_unrecorded (cs : List N) :
    (cs.map unrecorded).map (Prod.fst : N × List (Call N G) → N) = cs := by
  rw [List.map_map]
  exact List.map_id cs

/-- What ticks and resets keep is true of a machine whenever it is ticked. -/
theorem Keeps.watched (h : m.Keeps P) :
    m.watched.Keeps fun n => P n.1 ∧ ∀ b ∈ n.2, P b.node where
  tick f n w hn := by
    refine ⟨h.tick f w hn.1, fun b hb => ?_⟩
    rcases List.mem_append.mp hb with hb | hb
    · exact hn.2 b hb
    · obtain rfl := List.mem_singleton.mp hb
      exact hn.1
  reset hn := ⟨h.reset hn.1, hn.2⟩

end Machine

/-! ## (2) The ticks of children -/

section Children

variable {m : Machine N G} {P : N → Prop} {f : Frame} {w : World G}

/-- **The ticks of the children** within one tick of a composite, child by child. -/
def Composite.calls (m : Machine N G) (f : Frame) (c : Composite) (cs : List N) (w : World G) :
    List (Call N G) :=
  (c.tick m.watched f (cs.map Machine.unrecorded) w).node.2.flatMap (·.2)

/-- **The ticks of the child** within one tick of a decorator. -/
def Decorator.calls (m : Machine N G) (f : Frame) (d : Decorator G) (child : Option N)
    (w : World G) : List (Call N G) :=
  (d.tick m.watched f (child.map Machine.unrecorded) w).node.2.toList.flatMap (·.2)

/-- **The ticks of the children** within one tick of a node of the game's own making. -/
def Custom.calls (m : Machine N G) (f : Frame) (c : Custom G) (cs : List N) (w : World G) :
    List (Call N G) :=
  (c.tick m.watched f (cs.map Machine.unrecorded) w).node.flatMap (·.2)

/-- What holds of all children holds of them with nothing written down, and of all that is written.
-/
theorem forall_mem_unrecorded {cs : List N} (hcs : ∀ n ∈ cs, P n) :
    ∀ n ∈ cs.map (Machine.unrecorded : N → N × List (Call N G)),
      P n.1 ∧ ∀ b ∈ n.2, P b.node := by
  intro n hn
  obtain ⟨n, hmem, rfl⟩ := List.mem_map.mp hn
  exact ⟨hcs n hmem, List.forall_mem_nil _⟩

/-- **A watched child is ticked as it would be** if nobody watched. -/
theorem Composite.status_watched (c : Composite) (cs : List N) :
    (c.tick m.watched f (cs.map Machine.unrecorded) w).status = (c.tick m f cs w).status := by
  have htick := m.embeds_watched.composite f c (cs.map Machine.unrecorded) w
  rw [Machine.map_unrecorded] at htick
  exact (congrArg Outcome.status htick).symm

/-- A decorator reports the same whether or not its child is watched. -/
theorem Decorator.status_watched (d : Decorator G) (child : Option N) :
    (d.tick m.watched f (child.map Machine.unrecorded) w).status = (d.tick m f child w).status := by
  have htick := m.embeds_watched.decorator f d (child.map Machine.unrecorded) w
  have hsame : (child.map Machine.unrecorded).map (Prod.fst : N × List (Call N G) → N) = child := by
    cases child <;> rfl
  rw [hsame] at htick
  exact (congrArg Outcome.status htick).symm

/-- What the ticks of children keep holds of each child that a composite ticks, when it does. -/
theorem Composite.forall_mem_calls (h : m.Keeps P) {c : Composite} {cs : List N}
    (hcs : ∀ n ∈ cs, P n) : ∀ b ∈ c.calls m f cs w, P b.node := by
  intro b hb
  obtain ⟨n, hn, hb⟩ := List.mem_flatMap.mp hb
  exact (h.watched.composite (forall_mem_unrecorded hcs) n hn).2 b hb

/-- What the ticks of a child keep holds of the child that a decorator ticks, when it does. -/
theorem Decorator.forall_mem_calls (h : m.Keeps P) {d : Decorator G} {child : Option N}
    (hc : ∀ n ∈ child, P n) : ∀ b ∈ d.calls m f child w, P b.node := by
  intro b hb
  obtain ⟨n, hn, hb⟩ := List.mem_flatMap.mp hb
  refine (h.watched.decorator (fun c hc' => ?_) n (Option.mem_toList.mp hn)).2 b hb
  obtain ⟨c, hmem, rfl⟩ := Option.mem_map.mp hc'
  exact ⟨hc c hmem, List.forall_mem_nil _⟩

/-- What the ticks of children keep holds of each child that a node of the game's own ticks. -/
theorem Custom.forall_mem_calls (h : m.Keeps P) {c : Custom G} {cs : List N}
    (hcs : ∀ n ∈ cs, P n) : ∀ b ∈ c.calls m f cs w, P b.node := by
  intro b hb
  obtain ⟨n, hn, hb⟩ := List.mem_flatMap.mp hb
  exact (h.watched.custom (forall_mem_unrecorded hcs) n hn).2 b hb

end Children

/-! ## (3) Runs of decorators -/

/-- **Decorators as machines**, around a child that acts by `m`. -/
def Machine.decorator (m : Machine N G) : Machine (Decorator G × Option N) G where
  tick f n w := n.1.tick m f n.2 w
  reset n := (n.1.reset, n.2.map m.reset)
  onReset n := m.onResetOption n.2
  name n := n.1.kind.name

/-- Decorators do the same around machines that act alike. -/
theorem Machine.Embeds.around {M : Type} {m : Machine N G} {m' : Machine M G} {child : N → M}
    (h : m.Embeds m' child) : m.decorator.Embeds m'.decorator (Prod.map id (Option.map child)) where
  tick f n w := h.decorator f n.1 n.2 w
  reset n := by
    obtain ⟨d, c⟩ := n
    cases c with
    | none => rfl
    | some c => exact congrArg (fun c => (d.reset, some c)) (h.reset c)
  onReset n := by
    obtain ⟨d, c⟩ := n
    cases c with
    | none => rfl
    | some c => exact h.onReset c

/-- **The run of a decorator** is the same if nobody watches its child. -/
theorem Decorator.run_watched (m : Machine N G) (moves : List (Move G)) (d : Decorator G) (c : N)
    (w : World G) :
    let r := m.watched.decorator.run moves (d, some (Machine.unrecorded c)) w
    m.decorator.run moves (d, some c) w = (r.1, (r.2.1.1, r.2.1.2.map Prod.fst), r.2.2) :=
  m.embeds_watched.around.run moves (d, some (Machine.unrecorded c)) w

/-! ## (4) The ticks of nodes -/

namespace Node

variable {a b : Call (Node G) G} {p : Node G → Prop}

/-- **The ticks of the nodes right below** within one tick of a node. The trees of patterns are
trees of their own, and their ticks are not told. -/
def calls (a : Call (Node G) G) : List (Call (Node G) G) :=
  match a.node with
  | composite _ c cs => c.calls asMachine a.frame cs a.world
  | decorator _ d child => d.calls asMachine a.frame child a.world
  | leaf _ _ => []
  | patterns _ _ => []
  | custom c cs => c.calls asMachine a.frame cs a.world

/-- **The tick `b` was made within the tick `a`**, of the same node or of one that is any number of
levels below. -/
def Within : Call (Node G) G → Call (Node G) G → Prop :=
  Relation.ReflTransGen fun a b => b ∈ calls a

/-- What ticks keep holds of every node that is ticked below one, if it holds below that one. -/
theorem forall_mem_calls {P : Node G → Prop} (h : (asMachine : Machine (Node G) G).Keeps P)
    (hbelow : ∀ c ∈ a.node.beneath, P c) : ∀ b ∈ calls a, P b.node := by
  obtain ⟨f, n, w⟩ := a
  -- one kind of node after the other; leaves tick nothing, and patterns nothing of their tree
  cases n with
  | composite title c cs => exact Composite.forall_mem_calls h hbelow
  | decorator title d child =>
    exact Decorator.forall_mem_calls h fun c hc => hbelow c (Option.mem_toList.mpr hc)
  | leaf title l => exact List.forall_mem_nil _
  | patterns title s => exact List.forall_mem_nil _
  | custom c cs => exact Custom.forall_mem_calls h hbelow

/-- What is ticked has fewer levels than the node that ticks it. -/
theorem levels_lt_of_mem_calls (hb : b ∈ calls a) : b.node.levels < a.node.levels := by
  have hone := a.node.one_le_levels
  -- a child may have changed since the tick began, but not grown
  have hkeeps : (asMachine : Machine (Node G) G).Keeps fun n => n.levels ≤ a.node.levels - 1 :=
    ⟨fun f _ w hn => levels_tick_le hn f w, levels_reset_le⟩
  have hbelow : ∀ c ∈ a.node.beneath, c.levels ≤ a.node.levels - 1 :=
    (a.node.levels_le_succ_iff (a.node.levels - 1)).mp (by omega)
  have hlevels := forall_mem_calls hkeeps hbelow b hb
  omega

/-- A call below a tree finds what holds everywhere in it, if ticks keep that. -/
theorem everywhere_of_mem_calls (hp : Kept p) (ha : a.node.Everywhere p) (hb : b ∈ calls a) :
    b.node.Everywhere p := by
  have hkeeps : (asMachine : Machine (Node G) G).Keeps fun n => n.Everywhere p :=
    ⟨fun f _ w hn => everywhere_tick hp hn f w, everywhere_reset_of_kept hp⟩
  exact forall_mem_calls hkeeps (everywhere_iff.mp ha).2 b hb

/-- **What is kept throughout a node** holds throughout all that is ticked within its tick. -/
theorem Within.everywhere (hp : Kept p) (ha : a.node.Everywhere p) (h : Within a b) :
    b.node.Everywhere p := by
  induction h with
  | refl => exact ha
  | tail _ hb ih => exact everywhere_of_mem_calls hp ih hb

end Node

end Instinct
