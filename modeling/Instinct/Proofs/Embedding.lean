import Instinct.Proofs.Flattening
import Mathlib.Data.Option.Basic

/-! # Nodes know nothing of their children

A node sees of its children how they act and nothing else. So it does the same over machines that
act alike, and what ticks and resets keep stays true of the children.

* **`Machine.Shows`** — machines that act like others, perhaps in a game of which more is seen.
* **`Machine.Shows.walk`**, **`tickAll`**, **`tickAt`** — the loops over children.
* **`Machine.Shows.composite`** — one tick of a composite.
* **`Machine.Embeds.repeatChild`**, **`retryChild`** — the loops around one child.
* **`Machine.Embeds.composite`**, **`decorator`**, **`custom`** — one tick of each kind of node.
* **`Machine.Keeps m P`** — ticks and resets keep `P`.
* **`Machine.Keeps.composite`**, **`decorator`**, **`custom`** — then `P` stays true of the
  children. -/

namespace Instinct

variable {M N G H : Type}

/-! ## (1) Machines in two games -/

/-- An outcome as it is shown: the machine by `child` and the world by `view`. -/
def Outcome.shown (child : N → M) (view : World H → World G) (o : Outcome N H) : Outcome M G :=
  ⟨o.status, child o.node, view o.world⟩

/-- **`child` and `view` show machines as machines of another game**, where they do the same. -/
structure Machine.Shows (m : Machine N H) (m' : Machine M G) (child : N → M)
    (view : World H → World G) : Prop where
  tick : ∀ f n w, m'.tick f (child n) (view w) = (m.tick f n w).shown child view
  reset : ∀ n, m'.reset (child n) = child (m.reset n)
  onReset : ∀ n w, (view w).mapGame (m'.onReset (child n)) = view (w.mapGame (m.onReset n))

namespace Machine.Shows

variable {m : Machine N H} {m' : Machine M G} {child : N → M} {view : World H → World G}

/-- **A walk over children** is shown as a walk over the children as they are shown. -/
theorem walk (h : m.Shows m' child view) (goOn : Status) (f : Frame) (cs : List N) (w : World H) :
    Instinct.walk m' goOn f (cs.map child) (view w) =
      ⟨(Instinct.walk m goOn f cs w).status, (Instinct.walk m goOn f cs w).passed,
        (Instinct.walk m goOn f cs w).children.map child,
        view (Instinct.walk m goOn f cs w).world⟩ := by
  induction cs generalizing w with
  | nil => rfl
  | cons c cs ih =>
    rw [List.map_cons, Instinct.walk, Instinct.walk, h.tick, Outcome.shown]
    dsimp only
    -- both walks read the same status of the first child
    by_cases hgo : (m.tick f c w).status = goOn
    · rw [if_pos hgo, if_pos hgo, ih]
      rfl
    · rw [if_neg hgo, if_neg hgo]
      rfl

/-- Ticking all children is shown as ticking all of them as they are shown. -/
theorem tickAll (h : m.Shows m' child view) (f : Frame) (cs : List N) (w : World H) :
    m'.tickAll f (cs.map child) (view w) =
      ((m.tickAll f cs w).1, (m.tickAll f cs w).2.1.map child, view (m.tickAll f cs w).2.2) := by
  induction cs generalizing w with
  | nil => rfl
  | cons c cs ih =>
    rw [List.map_cons, Machine.tickAll, Machine.tickAll, h.tick, Outcome.shown]
    dsimp only
    rw [ih]
    rfl

/-- Ticking the child at one place is shown as ticking the one that is shown there. -/
theorem tickAt (h : m.Shows m' child view) (f : Frame) (i : Nat) (cs : List N) (w : World H) :
    m'.tickAt f i (cs.map child) (view w) = (m.tickAt f i cs w).shown (List.map child) view := by
  induction cs generalizing i with
  | nil =>
    rw [List.map_nil, tickAt_nil, tickAt_nil]
    rfl
  | cons c cs ih =>
    cases i with
    | zero =>
      rw [List.map_cons, Machine.tickAt, Machine.tickAt, h.tick]
      rfl
    | succ i =>
      rw [List.map_cons, Machine.tickAt, Machine.tickAt, ih]
      rfl

/-- What the game is told of a reset of children is shown as what it is told of them as shown. -/
theorem onResetAll (h : m.Shows m' child view) (cs : List N) (w : World H) :
    (view w).mapGame (m'.onResetAll (cs.map child)) = view (w.mapGame (m.onResetAll cs)) := by
  induction cs generalizing w with
  | nil => rfl
  | cons c cs ih =>
    -- one child at a time: the first tells its part, then the others tell theirs
    calc (view w).mapGame (m'.onResetAll ((c :: cs).map child))
        = ((view w).mapGame (m'.onReset (child c))).mapGame (m'.onResetAll (cs.map child)) := rfl
      _ = (view (w.mapGame (m.onReset c))).mapGame (m'.onResetAll (cs.map child)) := by
        rw [h.onReset]
      _ = view ((w.mapGame (m.onReset c)).mapGame (m.onResetAll cs)) := ih _

/-! ### Composites -/

/-- Concluding is shown as concluding over the children as they are shown. -/
theorem conclude (h : m.Shows m' child view) (c : Composite) (cs : List N) (status : Status)
    (w : World H) :
    c.conclude m' (cs.map child) status (view w) =
      (c.conclude m cs status w).shown (Prod.map id (List.map child)) view := by
  rw [Composite.conclude, map_reset_map h.reset, h.onResetAll]
  rfl

/-- A sequence or a selector over the children as they are shown. -/
theorem tickInOrder (h : m.Shows m' child view) (make : Nat → Composite) (goOn : Status)
    (f : Frame) (cursor : Nat) (cs : List N) (w : World H) :
    Composite.tickInOrder m' make goOn f cursor (cs.map child) (view w) =
      (Composite.tickInOrder m make goOn f cursor cs w).shown (Prod.map id (List.map child))
        view := by
  rw [Composite.tickInOrder, Composite.tickInOrder, ← List.map_drop, ← List.map_take, h.walk]
  dsimp only
  rw [← List.map_append]
  -- the walk has the same status on both sides, which decides whether the composite concludes
  by_cases hstatus : (Instinct.walk m goOn f (cs.drop cursor) w).status = .running
  · rw [if_pos hstatus, if_pos hstatus]
    rfl
  · rw [if_neg hstatus, if_neg hstatus, h.conclude]

/-- A parallel over the children as they are shown. -/
theorem tickParallel (h : m.Shows m' child view) (policy : Policy) (f : Frame) (cs : List N)
    (w : World H) :
    Composite.tickParallel m' policy f (cs.map child) (view w) =
      (Composite.tickParallel m policy f cs w).shown (Prod.map id (List.map child)) view := by
  rw [Composite.tickParallel, Composite.tickParallel, h.tickAll, List.length_map]
  dsimp only
  -- the verdict is over the same counts; the two that conclude reset the children
  cases policy.verdict cs.length ((m.tickAll f cs w).1.count .success)
    ((m.tickAll f cs w).1.count .failure) with
  | running => rfl
  | success => exact h.conclude _ _ _ _
  | failure => exact h.conclude _ _ _ _

/-- A composite that draws, over the children as they are shown. -/
theorem tickChosen (h : m.Shows m' child view) (make : Draws → Composite) (pick : Generator → Nat)
    (f : Frame) (d : Draws) (cs : List N) (w : World H) :
    Composite.tickChosen m' make pick f d (cs.map child) (view w) =
      (Composite.tickChosen m make pick f d cs w).shown (Prod.map id (List.map child)) view := by
  rw [Composite.tickChosen, Composite.tickChosen, List.isEmpty_map]
  by_cases hempty : cs.isEmpty = true
  · rw [if_pos hempty, if_pos hempty]
    rfl
  · rw [if_neg hempty, if_neg hempty]
    dsimp only
    rw [h.tickAt]
    rfl

/-- **One tick of a composite** is shown as it is. -/
theorem composite (h : m.Shows m' child view) (f : Frame) (c : Composite) (cs : List N)
    (w : World H) :
    c.tick m' f (cs.map child) (view w) =
      (c.tick m f cs w).shown (Prod.map id (List.map child)) view := by
  cases c with
  | sequence cursor => exact h.tickInOrder _ _ f cursor cs w
  | selector cursor => exact h.tickInOrder _ _ f cursor cs w
  | parallel policy => exact h.tickParallel policy f cs w
  -- the draw is among the children there are, and no child is lost or added
  | random d =>
    rw [Composite.tick, List.length_map]
    exact h.tickChosen _ _ f d cs w
  | weighted ws d =>
    rw [Composite.tick, List.length_map]
    exact h.tickChosen _ _ f d cs w

end Machine.Shows

namespace Machine.Embeds

variable {m : Machine N G} {m' : Machine M G} {child : N → M}

/-! ## (2) Machines in one game -/

/-- Machines that act alike in one game, of which all is seen. -/
theorem shows (h : m.Embeds m' child) : m.Shows m' child id where
  tick := h.tick
  reset := h.reset
  onReset n w := by
    rw [h.onReset]
    rfl

/-- A tick in the same game, of which all is seen. -/
theorem outcome (h : m.Embeds m' child) (f : Frame) (c : N) (w : World G) :
    m'.tick f (child c) w =
      ⟨(m.tick f c w).status, child (m.tick f c w).node, (m.tick f c w).world⟩ := h.tick f c w

/-- A reset in the same game. -/
theorem resetIn (h : m.Embeds m' child) (c : N) (w : World G) :
    m'.resetIn (child c) w = Prod.map child id (m.resetIn c w) := by
  rw [Machine.resetIn, h.reset, h.onReset]
  rfl

/-- The rounds of a repeater, over a child that acts the same. -/
theorem repeatChild (h : m.Embeds m' child) (f : Frame) (left completed : Nat) (c : N)
    (w : World G) :
    Decorator.repeatChild m' f left completed (child c) w =
      Prod.map id (Prod.map id (Prod.map child id))
        (Decorator.repeatChild m f left completed c w) := by
  induction left generalizing completed c w with
  | zero => rfl
  | succ left ih =>
    rw [Decorator.repeatChild, Decorator.repeatChild, h.outcome]
    dsimp only
    -- the rounds go on only with a child that has concluded, and that is reset first
    by_cases hrunning : (m.tick f c w).status.isRunning = true
    · rw [if_pos hrunning, if_pos hrunning]
      rfl
    · rw [if_neg hrunning, if_neg hrunning, h.resetIn]
      exact ih _ _ _

/-- The rounds of a retry, over a child that acts the same. -/
theorem retryChild (h : m.Embeds m' child) (f : Frame) (left failed : Nat) (c : N) (w : World G) :
    Decorator.retryChild m' f left failed (child c) w =
      Prod.map id (Prod.map id (Prod.map child id))
        (Decorator.retryChild m f left failed c w) := by
  induction left generalizing failed c w with
  | zero => rfl
  | succ left ih =>
    rw [Decorator.retryChild, Decorator.retryChild, h.outcome]
    dsimp only
    rw [h.resetIn]
    -- only a failure is tried once more
    cases (m.tick f c w).status with
    | running => rfl
    | success => rfl
    | failure => exact ih _ _ _

/-! ### Nodes with children -/

/-- **One tick of a composite** over machines that act alike. -/
theorem composite (h : m.Embeds m' child) (f : Frame) (c : Composite) (cs : List N)
    (w : World G) :
    c.tick m' f (cs.map child) w = (c.tick m f cs w).map (Prod.map id (List.map child)) :=
  h.shows.composite f c cs w

/-- **A decorator around a child that acts the same** does the same. -/
theorem tickAround (h : m.Embeds m' child) (f : Frame) (d : Decorator G) (c : N) (w : World G) :
    d.tickAround m' f (child c) w = (d.tickAround m f c w).map (Prod.map id child) := by
  cases d with
  | inverter =>
    rw [Decorator.tickAround, Decorator.tickAround, h.outcome]
    rfl
  | succeeder =>
    rw [Decorator.tickAround, Decorator.tickAround, h.outcome]
    rfl
  | failer =>
    rw [Decorator.tickAround, Decorator.tickAround, h.outcome]
    rfl
  -- the loops around the child have lemmas of their own; the rest tick it once
  | repeater times completed =>
    cases times with
    | none =>
      rw [Decorator.tickAround, Decorator.tickAround, h.outcome]
      dsimp only
      rw [h.resetIn]
      split <;> rfl
    | some times =>
      rw [Decorator.tickAround, Decorator.tickAround, h.repeatChild]
      rfl
  | retry attempts failed =>
    rw [Decorator.tickAround, Decorator.tickAround, h.retryChild]
    rfl
  | timeout limit started =>
    rw [Decorator.tickAround, Decorator.tickAround, h.outcome, h.resetIn]
    dsimp only
    split <;> rfl
  | cooldown duration finished =>
    rw [Decorator.tickAround, Decorator.tickAround, h.outcome]
    split <;> rfl
  | conditional guard =>
    simp only [Decorator.tickAround, h.outcome, h.resetIn]
    split <;> rfl

/-- **One tick of a decorator** around a machine that acts alike. -/
theorem decorator (h : m.Embeds m' child) (f : Frame) (d : Decorator G) (c : Option N)
    (w : World G) :
    d.tick m' f (c.map child) w = (d.tick m f c w).map (Prod.map id (Option.map child)) := by
  cases c with
  | none => rfl
  | some c =>
    rw [Option.map_some, Decorator.tick, Decorator.tick, h.tickAround]
    rfl

/-- **One tick of a node of the game's own making** over machines that act alike. -/
theorem custom (h : m.Embeds m' child) (f : Frame) (c : Custom G) (cs : List N) (w : World G) :
    c.tick m' f (cs.map child) w = (c.tick m f cs w).map (List.map child) := by
  have hall := h.shows.tickAll f cs
  simp only [id_eq] at hall
  simp only [Custom.tick, hall]
  rfl

end Machine.Embeds

/-! ## (3) What stays true of the children -/

/-- **Ticks and resets keep `P`.** -/
structure Machine.Keeps (m : Machine N G) (P : N → Prop) : Prop where
  tick : ∀ f {n} w, P n → P (m.tick f n w).node
  reset : ∀ {n}, P n → P (m.reset n)

namespace Machine

variable {m : Machine N G} {P : N → Prop} {f : Frame} {w : World G}

/-- The machines of which `P` is true, as machines by themselves. -/
def among (m : Machine N G) (h : m.Keeps P) : Machine {n // P n} G where
  tick f n w := ⟨(m.tick f n w).status, ⟨(m.tick f n w).node, h.tick f w n.2⟩, (m.tick f n w).world⟩
  reset n := ⟨m.reset n, h.reset n.2⟩
  onReset n := m.onReset n
  name n := m.name n

/-- The machines of which `P` is true act as they do among all. -/
theorem embeds_among (h : m.Keeps P) : (m.among h).Embeds m Subtype.val where
  tick _ _ _ := rfl
  reset _ := rfl
  onReset _ := rfl

/-- **`P` stays true of the children of a composite.** -/
theorem Keeps.composite (h : m.Keeps P) {c : Composite} {cs : List N} (hcs : ∀ n ∈ cs, P n) :
    ∀ n ∈ (c.tick m f cs w).node.2, P n := by
  -- the children are ticked as machines that have `P` by their type
  rw [← List.attachWith_map_subtype_val hcs, (embeds_among h).composite]
  intro n hn
  obtain ⟨n, -, rfl⟩ := List.mem_map.mp hn
  exact n.2

/-- **`P` stays true of the children of a custom node.** -/
theorem Keeps.custom (h : m.Keeps P) {c : Custom G} {cs : List N} (hcs : ∀ n ∈ cs, P n) :
    ∀ n ∈ (c.tick m f cs w).node, P n := by
  rw [← List.attachWith_map_subtype_val hcs, (embeds_among h).custom]
  intro n hn
  obtain ⟨n, -, rfl⟩ := List.mem_map.mp hn
  exact n.2

/-- **`P` stays true of the child of a decorator.** -/
theorem Keeps.decorator (h : m.Keeps P) {d : Decorator G} {c : Option N} (hc : ∀ n ∈ c, P n) :
    ∀ n ∈ (d.tick m f c w).node.2, P n := by
  cases c with
  | none => exact hc
  | some c =>
    -- the child is ticked as a machine that has `P` by its type
    have htick := (embeds_among h).decorator f d (some ⟨c, hc c rfl⟩) w
    rw [Option.map_some] at htick
    rw [htick]
    intro n hn
    have hn : n ∈ (d.tick (m.among h) f (some ⟨c, hc c rfl⟩) w).node.2.map Subtype.val := hn
    obtain ⟨n, -, rfl⟩ := Option.mem_map.mp hn
    exact n.2

end Machine

end Instinct
