import Instinct.Frame
import Instinct.World

/-! # Machines: what a node needs to know about its children

A node of a tree treats its children as machines: it can tick them, reset them and name them, and
knows nothing else about them. Every kind of node is therefore written, and can be reasoned about,
over children of any type.

* **`Outcome N G`** — what a tick leaves behind: a status, the machine after it and the world.
* **`Machine N G`** — how values of type `N` act as machines.
* **`Machine.resetAll`**, **`Machine.resetOption`** — resetting a list of machines or the one that
  may be there. -/

namespace Instinct

/-- **What a tick leaves behind.** -/
structure Outcome (N G : Type) where
  /-- The status that the tick reports. -/
  status : Status
  /-- The machine after the tick. -/
  node : N
  /-- The world after the tick. -/
  world : World G

/-- The outcome with its machine wrapped. -/
def Outcome.map {M N G : Type} (f : N → M) (o : Outcome N G) : Outcome M G :=
  ⟨o.status, f o.node, o.world⟩

/-- **How values of type `N` act as machines in a game `G`.** A reset drops what the machine
remembers of an unfinished run. It touches the game only where the game has nodes of its own. -/
structure Machine (N G : Type) where
  /-- Evaluate a machine once. -/
  tick : Frame → N → World G → Outcome N G
  /-- The machine after a reset. -/
  reset : N → N
  /-- What a reset does to the game. -/
  onReset : N → G → G
  /-- The name of a machine. -/
  name : N → String

namespace Machine

variable {N G : Type}

/-- The machine that does nothing and fails. -/
def inert : Machine N G where
  tick _ n w := ⟨.failure, n, w⟩
  reset n := n
  onReset _ g := g
  name _ := ""

/-- The game after all of a list of machines are reset, in order. -/
def onResetAll (m : Machine N G) (ns : List N) (g : G) : G := ns.foldl (fun g n => m.onReset n g) g

/-- The game after the machine that may be there is reset. -/
def onResetOption (m : Machine N G) : Option N → G → G
  | some n, g => m.onReset n g
  | none, g => g

/-- Reset a machine in a world. -/
def resetIn (m : Machine N G) (n : N) (w : World G) : N × World G :=
  (m.reset n, w.mapGame (m.onReset n))

/-- Tick machines one after the other, whatever they report. -/
def tickAll (m : Machine N G) (frame : Frame) :
    List N → World G → List Status × List N × World G
  | [], w => ([], [], w)
  | n :: ns, w =>
    let o := m.tick frame n w
    let (statuses, ns', w') := m.tickAll frame ns o.world
    (o.status :: statuses, o.node :: ns', w')

/-- Tick the machine at an index; there is none past the end. -/
def tickAt (m : Machine N G) (frame : Frame) : Nat → List N → World G → Outcome (List N) G
  | _, [], w => ⟨.failure, [], w⟩
  | 0, n :: ns, w => (m.tick frame n w).map (· :: ns)
  | i + 1, n :: ns, w => (m.tickAt frame i ns w).map (n :: ·)

/-- Where there are no machines nothing is ticked. -/
@[simp] theorem tickAll_nil (m : Machine N G) (frame : Frame) (w : World G) :
    m.tickAll frame [] w = ([], [], w) := rfl

/-- There is nothing to tick at any place of an empty list, which is a failure. -/
@[simp] theorem tickAt_nil (m : Machine N G) (frame : Frame) (i : Nat) (w : World G) :
    m.tickAt frame i [] w = ⟨.failure, [], w⟩ := by cases i <;> rfl

/-- Machines are reset alike in the place of others, if each is. -/
theorem map_reset_map {M H : Type} {m : Machine N G} {m' : Machine M H} {child : N → M}
    (h : ∀ n, m'.reset (child n) = child (m.reset n)) (ns : List N) :
    (ns.map child).map m'.reset = (ns.map m.reset).map child := by
  rw [List.map_map, List.map_map]
  exact List.map_congr_left fun n _ => h n

/-- The game fares alike too. -/
theorem onResetAll_map {M : Type} {m : Machine N G} {m' : Machine M G} {child : N → M}
    (h : ∀ n, m'.onReset (child n) = m.onReset n) (ns : List N) :
    m'.onResetAll (ns.map child) = m.onResetAll ns := by
  funext g
  rw [onResetAll, List.foldl_map, onResetAll]
  simp only [h]

end Machine

end Instinct
