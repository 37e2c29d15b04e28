import Instinct.Proofs.Coupling.Exact
import Instinct.Proofs.Drift
import Instinct.Proofs.Runs
import Instinct.Proofs.Settling

/-! # What a node was built as, and what it keeps

A node that has run differs from the node that was built in what it remembers. Some of that is of
the run under way, and some lasts: how many choices a selector has made, and when the child of a
cooldown was last done.

* **`Node.asBuilt`** — the node as it was built; **`Node.lasting`** — what it keeps through a reset.
* **`Node.carrying`** — the node with what lasts put into it.
* **`Node.reset_eq_carrying`** — a reset leaves the node as it was built, but for what lasts.
* **`Node.kind_tickLayer`**, **`Node.kind_resetLayer`** — no node changes its kind.
* **`Node.asBuilt_tick`**, **`Node.asBuilt_reset`** — whatever a node goes through, it was built
  as the same. -/

namespace Instinct

variable {G : Type}

/-! ## Memories -/

namespace Composite

/-- The memory when it is built: at the first child, with no choice made yet. -/
def asBuilt : Composite → Composite
  | sequence _ => sequence 0
  | selector _ => selector 0
  | parallel policy => parallel policy
  | random d => random { stream := d.stream }
  | weighted ws d => weighted ws { stream := d.stream }

/-- How many choices were made so far. -/
def choices : Composite → UInt64
  | random d => d.count
  | weighted _ d => d.count
  | _ => 0

/-- The memory with so many choices made. -/
def withChoices (count : UInt64) : Composite → Composite
  | random d => random { d with count }
  | weighted ws d => weighted ws { d with count }
  | c => c

/-- **A reset forgets all but the number of choices.** -/
theorem reset_eq_asBuilt (c : Composite) : c.reset = c.asBuilt.withChoices c.choices := by
  cases c <;> rfl

/-- A reset leaves a composite of the same make. -/
@[simp] theorem asBuilt_reset (c : Composite) : c.reset.asBuilt = c.asBuilt := by
  cases c <;> rfl

/-- A composite as it was built is of the same kind. -/
@[simp] theorem kind_asBuilt (c : Composite) : c.asBuilt.kind = c.kind := by
  cases c <;> rfl

/-- How often a choice was made is no part of how a composite was built. -/
@[simp] theorem asBuilt_withChoices (c : Composite) (count : UInt64) :
    (c.withChoices count).asBuilt = c.asBuilt := by
  cases c <;> rfl

section Ticks

variable {N : Type} (m : Machine N G) (f : Frame) (cs : List N) (w : World G)

/-- Children tried in order: only the cursor moves. -/
theorem asBuilt_tickInOrder {make : Nat → Composite}
    (hmake : ∀ i, (make i).asBuilt = make 0) (hreset : (make 0).reset = make 0) (goOn : Status)
    (cursor : Nat) : (tickInOrder m make goOn f cursor cs w).node.1.asBuilt = make 0 := by
  unfold tickInOrder
  dsimp only
  split
  · exact hmake _
  · show (make 0).reset.asBuilt = make 0
    rw [hreset, hmake]

/-- Children ticked all at once: nothing moves. -/
theorem asBuilt_tickParallel (policy : Policy) :
    (tickParallel m policy f cs w).node.1.asBuilt = parallel policy := by
  unfold tickParallel
  dsimp only
  split <;> rfl

/-- A child committed to: only the draws move, and their stream stays. -/
theorem asBuilt_tickChosen {make : Draws → Composite} (pick : Generator → Nat) (d : Draws)
    (hmake : ∀ d' : Draws, d'.stream = d.stream → (make d').asBuilt = (make d).asBuilt) :
    (tickChosen m make pick f d cs w).node.1.asBuilt = (make d).asBuilt := by
  unfold tickChosen
  split
  · rfl
  · refine hmake _ ?_
    cases d.chosen <;> dsimp only <;> split <;> rfl

/-- **No tick changes what a composite was built as.** -/
theorem asBuilt_tick (c : Composite) : (c.tick m f cs w).node.1.asBuilt = c.asBuilt := by
  cases c with
  | sequence cursor => exact asBuilt_tickInOrder m f cs w (fun _ => rfl) rfl .success cursor
  | selector cursor => exact asBuilt_tickInOrder m f cs w (fun _ => rfl) rfl .failure cursor
  | parallel policy => exact asBuilt_tickParallel m f cs w policy
  | random d =>
    refine asBuilt_tickChosen m f cs w _ d fun d' hd => ?_
    exact congrArg (fun stream => random { stream }) hd
  | weighted ws d =>
    refine asBuilt_tickChosen m f cs w _ d fun d' hd => ?_
    exact congrArg (fun stream => weighted ws { stream }) hd

end Ticks

end Composite

namespace Decorator

/-- The memory when it is built: nothing counted, no time noted. -/
def asBuilt : Decorator G → Decorator G
  | repeater times _ => repeater times 0
  | retry attempts _ => retry attempts 0
  | timeout limit _ => timeout limit none
  | cooldown duration _ => cooldown duration none
  | d => d

/-- When the child of a cooldown was last done. -/
def finishedAt : Decorator G → Option Duration
  | cooldown _ finished => finished
  | _ => none

/-- The memory with the time noted when the child of a cooldown was last done. -/
def withFinished (finished : Option Duration) : Decorator G → Decorator G
  | cooldown duration _ => cooldown duration finished
  | d => d

/-- **A reset forgets all but when the child of a cooldown was last done.** -/
theorem reset_eq_asBuilt (d : Decorator G) : d.reset = d.asBuilt.withFinished d.finishedAt := by
  cases d <;> rfl

/-- A reset leaves a decorator of the same make. -/
@[simp] theorem asBuilt_reset (d : Decorator G) : d.reset.asBuilt = d.asBuilt := by
  cases d <;> rfl

/-- A decorator as it was built is of the same kind. -/
@[simp] theorem kind_asBuilt (d : Decorator G) : d.asBuilt.kind = d.kind := by
  cases d <;> rfl

/-- When a child was done last is no part of how a decorator was built. -/
@[simp] theorem asBuilt_withFinished (d : Decorator G) (finished : Option Duration) :
    (d.withFinished finished).asBuilt = d.asBuilt := by
  cases d <;> rfl

/-- **No tick changes what a decorator was built as.** -/
theorem asBuilt_tick {N : Type} (m : Machine N G) (f : Frame) (d : Decorator G) (child : Option N)
    (w : World G) : (d.tick m f child w).node.1.asBuilt = d.asBuilt := by
  cases child with
  | none => rfl
  | some c =>
    show (d.tickAround m f c w).node.1.asBuilt = d.asBuilt
    unfold tickAround
    -- whichever way a tick ends, the counts and stamps are all that differs
    cases d with
    | repeater times completed =>
      cases times with
      | none =>
        dsimp only
        split <;> rfl
      | some times => rfl
    | timeout limit started =>
      dsimp only
      split <;> rfl
    | cooldown duration finished =>
      dsimp only
      split <;> rfl
    | conditional guard =>
      dsimp only
      split <;> rfl
    | _ => rfl

end Decorator

namespace Leaf

/-- The memory when it is built: no wait under way. -/
def asBuilt : Leaf G → Leaf G
  | wait duration _ => wait duration none
  | l => l

/-- **A reset forgets all.** -/
theorem reset_eq_asBuilt (l : Leaf G) : l.reset = l.asBuilt := by
  cases l <;> rfl

/-- A leaf as it was built is of the same kind. -/
@[simp] theorem kind_asBuilt (l : Leaf G) : l.asBuilt.kind = l.kind := by
  cases l <;> rfl

/-- Built once more a leaf is as it was built. -/
@[simp] theorem asBuilt_asBuilt (l : Leaf G) : l.asBuilt.asBuilt = l.asBuilt := by
  cases l <;> rfl

/-- **No tick changes what a leaf was built as.** -/
theorem asBuilt_tick (f : Frame) (l : Leaf G) (w : World G) :
    (l.tick f w).node.asBuilt = l.asBuilt := by
  cases l with
  | wait duration started =>
    cases started with
    | none => rfl
    | some started =>
      rw [tick]
      split <;> rfl
  | setValue key source => cases source <;> rfl
  | _ => rfl

end Leaf

/-! ## Nodes -/

/-- **What a node keeps through a reset**, with all nodes below it. -/
inductive Lasting where
  /-- Of a composite: how many choices it has made. -/
  | composite (choices : UInt64) (below : List Lasting)
  /-- Of a decorator: when the child of a cooldown was last done. -/
  | decorator (finished : Option Duration) (below : Option Lasting)
  /-- Of a leaf: nothing. -/
  | leaf

namespace Node

/-- **A node that comes with the library** and drives no patterns. -/
def Stock : Node G → Prop
  | patterns _ _ => False
  | custom _ _ => False
  | _ => True

mutual

/-- **The node as it was built**, with all nodes below it. It is said of nodes that come with the
library. -/
def asBuilt : Node G → Node G
  | composite title c children => composite title c.asBuilt (asBuiltAll children)
  | decorator title d child => decorator title d.asBuilt (asBuiltOption child)
  | leaf title l => leaf title l.asBuilt
  | patterns title s => patterns title s
  | custom c children => custom c children

/-- A list of nodes as they were built. -/
def asBuiltAll : List (Node G) → List (Node G)
  | [] => []
  | n :: ns => asBuilt n :: asBuiltAll ns

/-- A node that may be there as it was built. -/
def asBuiltOption : Option (Node G) → Option (Node G)
  | none => none
  | some n => some (asBuilt n)

end

mutual

/-- **What a node keeps through a reset**, with all nodes below it. -/
def lasting : Node G → Lasting
  | composite _ c children => .composite c.choices (lastingAll children)
  | decorator _ d child => .decorator d.finishedAt (lastingOption child)
  | leaf _ _ => .leaf
  | patterns _ _ => .leaf
  | custom _ _ => .leaf

/-- What each of a list of nodes keeps. -/
def lastingAll : List (Node G) → List Lasting
  | [] => []
  | n :: ns => lasting n :: lastingAll ns

/-- What a node that may be there keeps. -/
def lastingOption : Option (Node G) → Option Lasting
  | none => none
  | some n => some (lasting n)

end

mutual

/-- **The node with what lasts put into it**, and into all nodes below it. -/
def carrying : Node G → Lasting → Node G
  | composite title c children, .composite choices below =>
    composite title (c.withChoices choices) (carryingAll children below)
  | decorator title d child, .decorator finished below =>
    decorator title (d.withFinished finished) (carryingOption child below)
  | n, _ => n

/-- A list of nodes with what lasts put into each. -/
def carryingAll : List (Node G) → List Lasting → List (Node G)
  | n :: ns, l :: ls => carrying n l :: carryingAll ns ls
  | ns, _ => ns

/-- A node that may be there with what lasts put into it. -/
def carryingOption : Option (Node G) → Option Lasting → Option (Node G)
  | some n, some l => some (carrying n l)
  | n, _ => n

end

/-- Children as they were built, one by one. -/
theorem asBuiltAll_eq (ns : List (Node G)) : asBuiltAll ns = ns.map asBuilt := by
  induction ns with
  | nil => rfl
  | cons n ns ih => rw [asBuiltAll, ih, List.map_cons]

/-- The nodes of a list as they were built, with what lasts of each put into it. -/
theorem carryingAll_lastingAll (ns : List (Node G)) :
    carryingAll (asBuiltAll ns) (lastingAll ns) = ns.map fun n => n.asBuilt.carrying n.lasting := by
  induction ns with
  | nil => rfl
  | cons n ns ih => rw [asBuiltAll, lastingAll, carryingAll, ih, List.map_cons]

/-! ## Resets -/

/-- **A reset leaves a node as it was built**, but for what lasts. -/
theorem reset_eq_carrying {n : Node G} (h : n.Everywhere Stock) :
    n.reset = n.asBuilt.carrying n.lasting := by
  -- induction on the tree: below, a reset is known to leave what is built with what lasts
  induction n using beneath_induction with
  | step n ih =>
    obtain ⟨hn, hbelow⟩ := h
    have hall : ∀ c ∈ n.beneath, c.reset = c.asBuilt.carrying c.lasting := fun c hc =>
      ih c hc (hbelow c hc)
    rw [reset_eq]
    cases n with
    | composite title c cs =>
      rw [asBuilt, lasting, carrying, carryingAll_lastingAll, resetLayer, c.reset_eq_asBuilt]
      exact congrArg (composite title _) (List.map_congr_left hall)
    | decorator title d child =>
      rw [asBuilt, lasting, carrying, resetLayer, d.reset_eq_asBuilt]
      cases child with
      | none => rfl
      | some c =>
        have hc : c.reset = c.asBuilt.carrying c.lasting := hall c (List.mem_singleton_self c)
        exact congrArg (fun c => decorator title _ (some c)) hc
    | leaf title l => exact congrArg (leaf title) l.reset_eq_asBuilt
    | patterns title s => exact hn.elim
    | custom c cs => exact hn.elim

/-- A reset does nothing to the game. -/
theorem onReset_of_stock {n : Node G} (h : n.Everywhere Stock) (g : G) : n.onReset g = g := by
  induction n using beneath_induction generalizing g with
  | step n ih =>
    obtain ⟨hn, hbelow⟩ := h
    have hall : ∀ c ∈ n.beneath, ∀ g, c.onReset g = g := fun c hc => ih c hc (hbelow c hc)
    rw [onReset_eq]
    cases n with
    | composite title c cs => exact Machine.onResetAll_of_same hall g
    | decorator title d child =>
      cases child with
      | none => rfl
      | some c => exact hall c (List.mem_singleton_self c) g
    | leaf title l => rfl
    | patterns title s => exact hn.elim
    | custom c cs => exact hn.elim

/-! ## What a node was built as -/

/-- **A tick leaves a node of its kind.** -/
theorem kind_tickLayer (m : Machine (Node G) G) (f : Frame) (w : World G) (n : Node G) :
    (tickLayer m f n w).node.kind = n.kind := by
  cases n with
  | composite title c cs =>
    show (c.tick m f cs w).node.1.kind = c.kind
    rw [← Composite.kind_asBuilt, Composite.asBuilt_tick, Composite.kind_asBuilt]
  | decorator title d child =>
    show (d.tick m f child w).node.1.kind = d.kind
    rw [← Decorator.kind_asBuilt, Decorator.asBuilt_tick, Decorator.kind_asBuilt]
  | leaf title l =>
    show (l.tick f w).node.kind = l.kind
    rw [← Leaf.kind_asBuilt, Leaf.asBuilt_tick, Leaf.kind_asBuilt]
  | patterns title s => rfl
  | custom c cs => rfl

/-- So does a reset. -/
theorem kind_resetLayer (m : Machine (Node G) G) (n : Node G) :
    (resetLayer m n).kind = n.kind := by
  cases n with
  | composite title c cs =>
    show c.reset.kind = c.kind
    rw [← Composite.kind_asBuilt, Composite.asBuilt_reset, Composite.kind_asBuilt]
  | decorator title d child =>
    show d.reset.kind = d.kind
    rw [← Decorator.kind_asBuilt, Decorator.asBuilt_reset, Decorator.kind_asBuilt]
  | leaf title l =>
    show l.reset.kind = l.kind
    rw [Leaf.reset_eq_asBuilt, Leaf.kind_asBuilt]
  | patterns title s => rfl
  | custom c cs => rfl

/-- A tree as it was built has nodes of the same kinds. -/
theorem everywhere_stock_asBuilt_iff {n : Node G} :
    n.asBuilt.Everywhere Stock ↔ n.Everywhere Stock := by
  induction n using beneath_induction with
  | step n ih =>
    cases n with
    | composite title c cs =>
      rw [asBuilt, asBuiltAll_eq, everywhere_composite, everywhere_composite, List.forall_mem_map]
      exact and_congr Iff.rfl (forall₂_congr ih)
    | decorator title d child =>
      rw [asBuilt, everywhere_decorator, everywhere_decorator]
      cases child with
      | none => exact Iff.rfl
      | some c =>
        have hc := ih c (List.mem_singleton_self c)
        simpa [asBuiltOption, Stock] using hc
    | leaf title l =>
      rw [asBuilt, everywhere_leaf, everywhere_leaf]
      exact Iff.rfl
    | patterns title s => exact Iff.rfl
    | custom c cs => exact Iff.rfl

/-- **What lasts does not change what a node was built as.** -/
theorem asBuilt_carrying (n : Node G) (l : Lasting) : (n.carrying l).asBuilt = n.asBuilt := by
  induction n using beneath_induction generalizing l with
  | step n ih =>
    -- children in pairs with what lasts of them; where either list ends, nothing is carried on
    have hall : ∀ (ns : List (Node G)) (ls : List Lasting), (∀ c ∈ ns, c ∈ n.beneath) →
        asBuiltAll (carryingAll ns ls) = asBuiltAll ns := by
      intro ns
      induction ns with
      | nil => exact fun ls _ => rfl
      | cons c ns ihs =>
        intro ls hns
        obtain ⟨hc, hns⟩ := List.forall_mem_cons.mp hns
        cases ls with
        | nil => rfl
        | cons l ls => rw [carryingAll, asBuiltAll, asBuiltAll, ih c hc l, ihs ls hns]
    cases n with
    | composite title c cs =>
      cases l with
      | composite choices below =>
        rw [carrying, asBuilt, asBuilt, c.asBuilt_withChoices, hall cs below fun _ hc => hc]
      | decorator finished below => rfl
      | leaf => rfl
    | decorator title d child =>
      cases l with
      | composite choices below => rfl
      | decorator finished below =>
        rw [carrying, asBuilt, asBuilt, d.asBuilt_withFinished]
        cases child with
        | none => rfl
        | some c =>
          cases below with
          | none => rfl
          | some l =>
            have hc := ih c (List.mem_singleton_self c) l
            exact congrArg (fun c => decorator title d.asBuilt (some c)) hc
      | leaf => rfl
    | leaf title m => cases l <;> rfl
    | patterns title s => cases l <;> rfl
    | custom c cs => cases l <;> rfl

end Node

/-- **Nodes that come with the library**, which stay what they were built as. -/
def Drift.stock : Drift (Node G) where
  nodes n := n.Everywhere Node.Stock
  becomes n n' := n'.asBuilt = n.asBuilt
  boards _ := True
  turns _ _ := True
  becomes_refl _ := rfl
  becomes_trans h h' := h'.trans h
  turns_refl _ := trivial
  turns_trans _ _ := trivial
  boards_of_turns _ _ := trivial

namespace Drift

/-- Children that stay of the same make do so one by one. -/
theorem asBuiltAll_of_becomes {ns ns' : List (Node G)}
    (h : (stock : Drift (Node G)).list.becomes ns ns') :
    Node.asBuiltAll ns' = Node.asBuiltAll ns := by
  induction h with
  | nil => rfl
  | cons hn _ ih =>
    have hn : Node.asBuilt _ = Node.asBuilt _ := hn
    rw [Node.asBuiltAll, Node.asBuiltAll, hn, ih]

/-- A child that stays of the same make, if there is one. -/
theorem asBuiltOption_of_becomes {c c' : Option (Node G)}
    (h : (stock : Drift (Node G)).option.becomes c c') :
    Node.asBuiltOption c' = Node.asBuiltOption c := by
  cases h with
  | none => rfl
  | some hn => exact congrArg some hn

/-- A node stays what it was built as if the nodes below do. -/
theorem Steps.layer_stock {m : Machine (Node G) G} (h : stock.Steps m m) :
    stock.Steps (Node.layer m) (Node.layer m) where
  tick f n w hn _ := by
    cases n with
    | composite title c cs =>
      obtain ⟨-, hcs⟩ := Node.everywhere_composite.mp hn
      obtain ⟨hchildren, -⟩ := h.composite (f := f) (w := w) c hcs trivial
      refine ⟨Node.everywhere_composite.mpr ⟨trivial, hchildren.nodes⟩, ?_, trivial⟩
      show Node.composite title _ _ = Node.composite title _ _
      rw [c.asBuilt_tick, asBuiltAll_of_becomes hchildren.becomes]
    | decorator title d child =>
      obtain ⟨-, hchild⟩ := Node.everywhere_decorator.mp hn
      obtain ⟨hchild, -⟩ := h.decorator (f := f) (w := w) d hchild trivial
      refine ⟨Node.everywhere_decorator.mpr ⟨trivial, hchild.nodes⟩, ?_, trivial⟩
      show Node.decorator title _ _ = Node.decorator title _ _
      rw [d.asBuilt_tick, asBuiltOption_of_becomes hchild.becomes]
    | leaf title l =>
      exact ⟨Node.everywhere_leaf.mpr trivial, congrArg (Node.leaf title) (l.asBuilt_tick f w),
        trivial⟩
    -- patterns and nodes of the game's own are no stock
    | patterns title s => exact (Node.everywhere_iff.mp hn).1.elim
    | custom c cs => exact (Node.everywhere_iff.mp hn).1.elim
  same _ _ _ _ _ := rfl
  reset {n} hn := by
    cases n with
    | composite title c cs =>
      obtain ⟨-, hcs⟩ := Node.everywhere_composite.mp hn
      obtain ⟨hnodes, hbecomes⟩ := h.resetAll hcs
      refine ⟨Node.everywhere_composite.mpr ⟨trivial, hnodes⟩, ?_⟩
      show Node.composite title _ _ = Node.composite title _ _
      rw [c.asBuilt_reset, asBuiltAll_of_becomes hbecomes]
    | decorator title d child =>
      obtain ⟨-, hchild⟩ := Node.everywhere_decorator.mp hn
      obtain ⟨hnodes, hbecomes⟩ := h.resetOption hchild
      refine ⟨Node.everywhere_decorator.mpr ⟨trivial, hnodes⟩, ?_⟩
      show Node.decorator title _ _ = Node.decorator title _ _
      rw [d.asBuilt_reset, asBuiltOption_of_becomes hbecomes]
    | leaf title l =>
      refine ⟨Node.everywhere_leaf.mpr trivial, ?_⟩
      show Node.leaf title _ = Node.leaf title _
      rw [l.reset_eq_asBuilt, l.asBuilt_asBuilt]
    | patterns title s => exact (Node.everywhere_iff.mp hn).1.elim
    | custom c cs => exact (Node.everywhere_iff.mp hn).1.elim
  same_reset := rfl
  same_onReset := rfl
  same_name := rfl

/-- Ticks and resets leave stock as it was built. -/
theorem steps_stock : stock.Steps (Node.asMachine : Machine (Node G) G) Node.asMachine :=
  Steps.asMachine fun _ h => h.layer_stock

end Drift

namespace Node

variable {n : Node G}

/-- **A tick leaves a node what it was built as.** -/
theorem asBuilt_tick (h : n.Everywhere Stock) (f : Frame) (w : World G) :
    (n.tick f w).node.asBuilt = n.asBuilt := (Drift.steps_stock.tick f h trivial).becomes

/-- **A reset leaves a node what it was built as.** -/
theorem asBuilt_reset (h : n.Everywhere Stock) : n.reset.asBuilt = n.asBuilt :=
  (Drift.steps_stock.reset h).2

/-- Ticked, stock stays stock. -/
theorem stock_tick (h : n.Everywhere Stock) (f : Frame) (w : World G) :
    (n.tick f w).node.Everywhere Stock := (Drift.steps_stock.tick f h trivial).nodes

/-- Reset, stock stays stock. -/
theorem stock_reset (h : n.Everywhere Stock) : n.reset.Everywhere Stock :=
  (Drift.steps_stock.reset h).1

/-- **Whatever a node goes through**, it is what it was built as. -/
theorem asBuilt_run (h : n.Everywhere Stock) (moves : List (Move G)) (w : World G) :
    (asMachine.run moves n w).2.1.Everywhere Stock ∧
      (asMachine.run moves n w).2.1.asBuilt = n.asBuilt := by
  -- the run is read move by move, from the front
  induction moves generalizing n w with
  | nil => exact ⟨h, rfl⟩
  | cons move moves ih =>
    cases move with
    | tick frame =>
      obtain ⟨hstock, hbuilt⟩ := ih (stock_tick h frame w) (n.tick frame w).world
      exact ⟨hstock, hbuilt.trans (asBuilt_tick h frame w)⟩
    | reset =>
      obtain ⟨hstock, hbuilt⟩ := ih (stock_reset h) (w.mapGame n.onReset)
      exact ⟨hstock, hbuilt.trans (asBuilt_reset h)⟩
    | meanwhile change => exact ih h (change w)

end Node

end Instinct
