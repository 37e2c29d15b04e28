import Instinct.Node.Kinds
import Instinct.Proofs.AsBuilt
import Instinct.Proofs.Diary
import Mathlib.Data.List.Flatten

/-! # The trail of a tick through a tree

A tick of the root leaves a trail: the nodes that were ticked, in the order of time, each with its
place in the tree. Cursors resume in the midst of the children, a choice jumps to one of them, and a
parallel ticks them all; but as long as no node repeats its child the trail only goes forward
through the tree.

* **`Node.notes`** — the ticks of the nodes right below within one tick, with their numbers.
* **`Node.trail`** — the ticks of all nodes within one tick, with their places.
* **`Node.within_iff_mem_trail`** — it leaves no tick out.
* **`Node.places`**, **`Node.leaves`** — the nodes of a tree, the leaves among them, from left to
  right; **`Node.pairwise_places`** — their places in increasing order.
* **`Node.trail_sublist`** — a tick goes forward through the tree.
* **`Node.ticked_in_order`** — so in any state, after any run, no leaf is ticked twice or before one
  to its left. -/

namespace Instinct

variable {N G : Type}

/-! ## (1) The ticks right below a node -/

/-- **A decorator that repeats nothing** ticks its child once at most. -/
theorem Decorator.calls_sublist {m : Machine N G} {d : Decorator G} (hrepeater : d.kind ≠ .repeater)
    (hretry : d.kind ≠ .retry) (f : Frame) (child : Option N) (w : World G) :
    ((d.calls m f child w).map Call.node).Sublist child.toList := by
  cases child with
  | none => cases d <;> exact .slnil
  | some c =>
    cases d with
    | repeater times completed => exact absurd rfl hrepeater
    | retry attempts failed => exact absurd rfl hretry
    -- the child is ticked only in time
    | timeout limit started =>
      rw [calls, Option.map_some, tick, tickAround]
      dsimp only
      split
      · exact List.nil_sublist _
      · exact .refl _
    -- it is ticked only when it has cooled down
    | cooldown duration finished =>
      rw [calls, Option.map_some, tick, tickAround]
      dsimp only
      split
      · exact List.nil_sublist _
      · exact .refl _
    -- it is ticked only if the guard holds
    | conditional guard =>
      rw [calls, Option.map_some, tick, tickAround]
      dsimp only
      split
      · exact .refl _
      · exact List.nil_sublist _
    | _ => exact .refl _

namespace Node

/-- **A node that comes with the library**, drives no patterns and ticks none of its children twice
in a tick. -/
def Single (n : Node G) : Prop := n.kind ≠ .repeater ∧ n.kind ≠ .retry ∧ n.kind ≠ .custom

/-- **The ticks of the nodes right below** within one tick of a node, in the order of time and with
their numbers. Those of patterns and of nodes of the game's own making are not told. -/
def notes (a : Call (Node G) G) : List (Note (Node G) G) :=
  match a.node with
  | composite _ c cs => c.record asMachine a.frame cs a.world
  | decorator _ d child => (d.calls asMachine a.frame child a.world).map fun b => ⟨b, 0⟩
  | _ => []

variable {a : Call (Node G) G} {e : Note (Node G) G} {n : Node G}

/-- The children of a node are among the nodes right below it. -/
theorem mem_beneath_of_mem_zipIdx {c : Node G × Nat} (hc : c ∈ n.children.zipIdx) :
    c.1 ∈ n.beneath := by
  have hmem : c.1 ∈ n.children := List.fst_mem_of_mem_zipIdx hc
  cases n with
  | patterns title s => cases hmem
  | _ => exact hmem

/-- What is ticked has fewer levels than the node that ticks it. -/
theorem levels_lt_of_mem_notes (he : e ∈ notes a) : e.node.levels < a.node.levels := by
  obtain ⟨f, n, w⟩ := a
  cases n with
  | composite title c cs =>
    have hchild : e.child ∈ cs.zipIdx :=
      (c.record_sublist asMachine f cs w).subset (List.mem_map_of_mem he)
    exact levels_lt_of_mem_beneath (List.fst_mem_of_mem_zipIdx hchild)
  | decorator title d child =>
    obtain ⟨b, hb, rfl⟩ := List.mem_map.mp he
    exact levels_lt_of_mem_calls (a := ⟨f, decorator title d child, w⟩) hb
  | leaf title l => cases he
  | patterns title s => cases he
  | custom c cs => cases he

/-- **Induction along the ticks within a tick.** -/
theorem notes_induction {motive : Call (Node G) G → Prop}
    (step : ∀ a, (∀ e ∈ notes a, motive e.toCall) → motive a) (a : Call (Node G) G) :
    motive a := by
  induction hlevels : a.node.levels using Nat.strongRecOn generalizing a with
  | ind k ih => exact step a fun e he => ih _ (hlevels ▸ levels_lt_of_mem_notes he) e.toCall rfl

/-- **A node goes forward through its children**, and each is as it was before the tick. -/
theorem notes_sublist (ha : a.node.Single) :
    ((notes a).map Note.child).Sublist a.node.children.zipIdx := by
  obtain ⟨f, n, w⟩ := a
  cases n with
  | composite title c cs => exact c.record_sublist asMachine f cs w
  | decorator title d child =>
    -- the one child of a decorator bears the number zero
    have hcalls := (d.calls_sublist ha.1 ha.2.1 f child w (m := asMachine)).map fun c => (c, 0)
    have hzip : child.toList.zipIdx = child.toList.map fun c => (c, 0) := by cases child <;> rfl
    show (((d.calls asMachine f child w).map fun b => (⟨b, 0⟩ : Note _ _)).map Note.child).Sublist
      child.toList.zipIdx
    rw [List.map_map, hzip]
    rwa [List.map_map] at hcalls
  | leaf title l => exact .slnil
  | patterns title s => exact absurd rfl ha.2.2
  | custom c cs => exact absurd rfl ha.2.2

/-- What holds throughout a node holds throughout the children it ticks. -/
theorem everywhere_of_mem_notes (ha : a.node.Everywhere Single) (he : e ∈ notes a) :
    e.node.Everywhere Single := by
  obtain ⟨hhere, hbelow⟩ := everywhere_iff.mp ha
  have hchild : e.child ∈ a.node.children.zipIdx :=
    (notes_sublist hhere).subset (List.mem_map_of_mem he)
  exact hbelow e.node (mem_beneath_of_mem_zipIdx hchild)

/-- No tick of a node right below is left out. -/
theorem calls_perm_notes (ha : a.node.Single) : (calls a).Perm ((notes a).map Note.toCall) := by
  obtain ⟨f, n, w⟩ := a
  cases n with
  | composite title c cs => exact c.calls_perm_record asMachine f cs w
  | decorator title d child =>
    show (d.calls asMachine f child w).Perm
      (((d.calls asMachine f child w).map fun b => (⟨b, 0⟩ : Note _ _)).map Note.toCall)
    rw [List.map_map]
    exact .of_eq (List.map_id _).symm
  | leaf title l => exact .nil
  | patterns title s => exact absurd rfl ha.2.2
  | custom c cs => exact absurd rfl ha.2.2

/-! ## (2) The trail of a tick -/

/-- **The ticks of all nodes** within one tick of a node, itself included, in the order in which
they begin. Each comes with the place of the node: the numbers of the children on the way to it. -/
def trail (a : Call (Node G) G) : List (List Nat × Call (Node G) G) :=
  ([], a) :: (notes a).attach.flatMap fun e =>
    (trail e.1.toCall).map (Prod.map (e.1.number :: ·) id)
termination_by a.node.levels
decreasing_by exact levels_lt_of_mem_notes e.2

/-- The trail of a tick begins with the tick itself. -/
theorem trail_eq (a : Call (Node G) G) :
    trail a = ([], a) :: (notes a).flatMap fun e =>
      (trail e.toCall).map (Prod.map (e.number :: ·) id) := by
  rw [trail]
  simp only [List.flatMap_subtype, List.unattach_attach]

/-- A tick is in the trail if it is the tick itself or in that of a child. -/
theorem mem_trail_iff {b : Call (Node G) G} :
    b ∈ (trail a).map Prod.snd ↔ a = b ∨ ∃ e ∈ notes a, b ∈ (trail e.toCall).map Prod.snd := by
  have hbelow (e : Note (Node G) G) :
      ((trail e.toCall).map (Prod.map (e.number :: ·) id)).map Prod.snd =
        (trail e.toCall).map Prod.snd := List.map_map
  rw [trail_eq, List.map_cons, List.map_flatMap, List.mem_cons, List.mem_flatMap]
  simp only [hbelow]
  exact or_congr_left eq_comm

/-- **The trail tells of all ticks** that were made within a tick, and of no others. -/
theorem within_iff_mem_trail (ha : a.node.Everywhere Single) (b : Call (Node G) G) :
    Within a b ↔ b ∈ (trail a).map Prod.snd := by
  induction a using notes_induction with
  | step a ih =>
    have hcalls := calls_perm_notes (everywhere_iff.mp ha).1
    have hbelow : ∀ e ∈ notes a, Within e.toCall b ↔ b ∈ (trail e.toCall).map Prod.snd :=
      fun e he => ih e he (everywhere_of_mem_notes ha he)
    rw [mem_trail_iff, Within, Relation.ReflTransGen.cases_head_iff]
    refine or_congr_right ⟨fun ⟨c, hc, hb⟩ => ?_, fun ⟨e, he, hb⟩ => ?_⟩
    · obtain ⟨e, he, rfl⟩ := List.mem_map.mp (hcalls.mem_iff.mp hc)
      exact ⟨e, he, (hbelow e he).mp hb⟩
    · exact ⟨e.toCall, hcalls.mem_iff.mpr (List.mem_map_of_mem he), (hbelow e he).mpr hb⟩

/-! ## (3) The places of a tree -/

/-- **The nodes of a tree**, each with its place, a node before its children and these from left to
right. -/
def places (n : Node G) : List (List Nat × Node G) :=
  ([], n) :: n.children.zipIdx.attach.flatMap fun c =>
    (places c.1.1).map (Prod.map (c.1.2 :: ·) id)
termination_by n.levels
decreasing_by exact levels_lt_of_mem_beneath (mem_beneath_of_mem_zipIdx c.2)

/-- The places of a node are its own and those below its children, by their numbers. -/
theorem places_eq (n : Node G) :
    n.places = ([], n) :: n.children.zipIdx.flatMap fun c =>
      c.1.places.map (Prod.map (c.2 :: ·) id) := by
  rw [places]
  simp only [List.flatMap_subtype, List.unattach_attach]

/-- The places of a composite. -/
@[simp] theorem places_composite (title : Option String) (c : Composite) (cs : List (Node G)) :
    (composite title c cs).places = ([], composite title c cs) ::
      cs.zipIdx.flatMap fun c => c.1.places.map (Prod.map (c.2 :: ·) id) := places_eq _

/-- The places of a decorator: all that are below lie below its one child. -/
@[simp] theorem places_decorator (title : Option String) (d : Decorator G) (c : Node G) :
    (decorator title d (some c)).places =
      ([], decorator title d (some c)) :: c.places.map (Prod.map (0 :: ·) id) := by
  rw [places_eq]
  exact congrArg _ (List.append_nil _)

/-- A leaf is the only place of itself. -/
@[simp] theorem places_leaf (title : Option String) (l : Leaf G) :
    (leaf title l).places = [([], leaf title l)] := places_eq _

/-- Places below a child begin with its number. -/
theorem exists_of_mem_below {c : Node G × Nat} {p : List Nat}
    (hp : p ∈ (c.1.places.map (Prod.map (c.2 :: ·) id)).map Prod.fst) : ∃ q, p = c.2 :: q := by
  obtain ⟨x, hx, rfl⟩ := List.mem_map.mp hp
  obtain ⟨y, -, rfl⟩ := List.mem_map.mp hx
  exact ⟨y.1, rfl⟩

/-- **The places are in increasing order**, that of words. So no two nodes have the same. -/
theorem pairwise_places (n : Node G) : (n.places.map Prod.fst).Pairwise (· < ·) := by
  induction n using beneath_induction with
  | step n ih =>
    have hnumbers : n.children.zipIdx.Pairwise fun c d => c.2 < d.2 := by
      rw [← List.pairwise_map (f := Prod.snd), List.zipIdx_map_snd]
      exact List.pairwise_lt_range' 1
    rw [places_eq, List.map_cons, List.map_flatMap, List.pairwise_cons, List.pairwise_flatMap]
    refine ⟨fun p hp => ?_, fun c hc => ?_, hnumbers.imp fun hlt p hp q hq => ?_⟩
    · -- the node itself comes before all that is below it
      obtain ⟨c, -, hp⟩ := List.mem_flatMap.mp hp
      obtain ⟨q, rfl⟩ := exists_of_mem_below hp
      exact List.nil_lt_cons _ _
    · -- below one child the places begin alike
      have hbelow := ih c.1 (mem_beneath_of_mem_zipIdx hc)
      rw [List.pairwise_map] at hbelow
      rw [List.map_map, List.pairwise_map]
      exact hbelow.imp fun hlt => List.cons_lt_cons_iff.mpr (.inr ⟨rfl, hlt⟩)
    · -- and the children come in the order of their numbers
      obtain ⟨p, rfl⟩ := exists_of_mem_below hp
      obtain ⟨q, rfl⟩ := exists_of_mem_below hq
      exact List.cons_lt_cons_iff.mpr (.inl hlt)

/-- Whether a node is a leaf. -/
def isLeaf : Node G → Bool
  | leaf _ _ => true
  | _ => false

/-- **The leaves of a tree**, each with its place, from left to right. -/
def leaves (n : Node G) : List (List Nat × Node G) := n.places.filter (·.2.isLeaf)

/-! ### As the tree was built -/

/-- The children of a node as it was built are its children as they were. -/
theorem children_asBuilt (h : n.Stock) : n.asBuilt.children = n.children.map asBuilt := by
  cases n with
  | composite title c cs => exact asBuiltAll_eq cs
  | decorator title d child => cases child <;> rfl
  | leaf title l => rfl
  | patterns title s => exact h.elim
  | custom c cs => exact h.elim

/-- **A tree has the same places** as it was built with. -/
theorem places_asBuilt (h : n.Everywhere Stock) :
    n.asBuilt.places = n.places.map (Prod.map id asBuilt) := by
  induction n using beneath_induction with
  | step n ih =>
    obtain ⟨hn, hbelow⟩ := h
    rw [places_eq, places_eq n, children_asBuilt hn, List.zipIdx_map, List.map_cons,
      List.map_flatMap, List.flatMap_map]
    refine congrArg (([], n.asBuilt) :: ·) (List.flatMap_congr fun c hc => ?_)
    have hc := mem_beneath_of_mem_zipIdx hc
    show c.1.asBuilt.places.map (Prod.map (c.2 :: ·) id) = _
    rw [ih c.1 hc (hbelow c.1 hc), List.map_map, List.map_map]
    rfl

/-- A node is a leaf if it was built as one. -/
theorem isLeaf_asBuilt (n : Node G) : n.asBuilt.isLeaf = n.isLeaf := by
  cases n <;> rfl

/-- Where the leaves are is told by the tree as it was built. -/
theorem leaves_asBuilt (h : n.Everywhere Stock) :
    n.asBuilt.leaves.map Prod.fst = n.leaves.map Prod.fst := by
  have hleaf : ((·.2.isLeaf) : List Nat × Node G → Bool) ∘ Prod.map id asBuilt = (·.2.isLeaf) :=
    funext fun x => isLeaf_asBuilt x.2
  rw [leaves, places_asBuilt h, List.filter_map, List.map_map, hleaf]
  rfl

/-! ## (4) Forward through the tree -/

/-- **A tick goes forward through the tree.** It ticks nodes as they were when it began, each once
at most, none before one to its left. -/
theorem trail_sublist (ha : a.node.Everywhere Single) :
    ((trail a).map (Prod.map id Call.node)).Sublist a.node.places := by
  induction a using notes_induction with
  | step a ih =>
    have hnotes := notes_sublist (everywhere_iff.mp ha).1
    have hsub : ∀ e ∈ notes a,
        ((trail e.toCall).map (Prod.map id Call.node)).Sublist e.node.places :=
      fun e he => ih e he (everywhere_of_mem_notes ha he)
    let below (c : Node G × Nat) := c.1.places.map (Prod.map (c.2 :: ·) id)
    -- what is ticked below each child goes forward, and so do the children themselves
    have heach : ((notes a).flatMap fun e =>
        ((trail e.toCall).map (Prod.map (e.number :: ·) id)).map (Prod.map id Call.node)).Sublist
          ((notes a).flatMap fun e => below e.child) := by
      refine List.Sublist.flatMap_right _ fun e he => ?_
      have hplaces := (hsub e he).map (Prod.map (e.number :: ·) id)
      rw [List.map_map] at hplaces ⊢
      exact hplaces
    rw [← List.flatMap_map Note.child below] at heach
    rw [trail_eq, places_eq, List.map_cons, List.map_flatMap]
    exact (heach.trans (hnotes.flatMap below)).cons_cons _

/-- A node that repeats nothing is of the stock. -/
theorem stock_of_single (h : n.Single) : n.Stock := by
  cases n with
  | patterns title s => exact h.2.2 rfl
  | custom c cs => exact h.2.2 rfl
  | _ => exact trivial

/-- Ticks and resets leave it of the same kind. -/
theorem kept_single : Kept (Single : Node G → Prop) where
  tick m f w n hn := by rwa [Single, kind_tickLayer]
  reset m n hn := by rwa [Single, kind_resetLayer]

/-- **No action twice in one frame, and none before one to its left.** Take a tree of nodes that
come with the library, without repeaters and retries, in the state that any run has left it in. A
tick of its root, in any frame and any world, leaves a trail of all ticks made within it: each node
is ticked once at most, and as it was when the tick of the root began. The leaves that are ticked
are some of the leaves of the tree, in their order from left to right. -/
theorem ticked_in_order (hn : n.Everywhere Single) (moves : List (Move G)) (w₀ : World G)
    (f : Frame) (w : World G) :
    let n' := (asMachine.run moves n w₀).2.1
    let ticked := (trail ⟨f, n', w⟩).map (Prod.map id Call.node)
    (∀ b, Within ⟨f, n', w⟩ b ↔ b ∈ (trail ⟨f, n', w⟩).map Prod.snd) ∧
    ticked.Sublist n'.places ∧
    (ticked.map Prod.fst).Nodup ∧ (ticked.map Prod.fst).Pairwise (· < ·) ∧
    ((ticked.filter (·.2.isLeaf)).map Prod.fst).Sublist (n.leaves.map Prod.fst) ∧
    (n.leaves.map Prod.fst).Pairwise (· < ·) := by
  intro n' ticked
  have hn' : n'.Everywhere Single := everywhere_run kept_single hn moves w₀
  have hstock : n.Everywhere Stock := hn.mono fun _ => stock_of_single
  obtain ⟨hstock', hbuilt⟩ := asBuilt_run hstock moves w₀
  have hticked : ticked.Sublist n'.places := trail_sublist (a := ⟨f, n', w⟩) hn'
  have hpaths := n'.pairwise_places.sublist (hticked.map Prod.fst)
  -- the run has left the leaves where they were
  have hleaves : n'.leaves.map Prod.fst = n.leaves.map Prod.fst := by
    rw [← leaves_asBuilt hstock', hbuilt, leaves_asBuilt hstock]
  refine ⟨within_iff_mem_trail (a := ⟨f, n', w⟩) hn', hticked,
    hpaths.imp fun hlt heq => ?_, hpaths, ?_, ?_⟩
  · exact List.lt_irrefl _ (heq ▸ hlt)
  · rw [← hleaves]
    exact (hticked.filter _).map Prod.fst
  · exact n.pairwise_places.sublist (List.filter_sublist.map Prod.fst)

/-- A parallel whose first child is done at once and whose second one waits. -/
theorem ticked_in_order_parallel :
    let n : Node Unit :=
      .parallel .requireAll [.inverter (some (.fixed .failure)), .wait (.ofMillis 5)]
    let w : World Unit := ⟨.empty, { game := () }⟩
    let n' := (asMachine.run [.tick (.atMillis 0)] n w).2.1
    let ticked := (trail ⟨.atMillis 5, n', w⟩).map (Prod.map id Call.node)
    n.Everywhere Single ∧ n.leaves.map Prod.fst = [[0, 0], [1]] ∧
      (ticked.map Prod.fst).Nodup ∧
      ((ticked.filter (·.2.isLeaf)).map Prod.fst).Sublist [[0, 0], [1]] := by
  intro n w n' ticked
  have hn : n.Everywhere Single := by
    simp [n, parallel, inverter, fixed, wait, Single, kind, Composite.kind, Decorator.kind,
      Leaf.kind]
  have hleaves : n.leaves.map Prod.fst = [[0, 0], [1]] := by
    simp [n, parallel, inverter, fixed, wait, leaves, isLeaf]
  obtain ⟨-, -, hnodup, -, hsub, -⟩ :=
    ticked_in_order hn [.tick (.atMillis 0)] w (.atMillis 5) w
  exact ⟨hn, hleaves, hnodup, hleaves ▸ hsub⟩

end Node

end Instinct
