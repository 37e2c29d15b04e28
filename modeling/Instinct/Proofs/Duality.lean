import Instinct.Node.Kinds
import Instinct.Proofs.Coupling.Exact
import Instinct.Proofs.Runs
import Mathlib.Data.List.Count

/-! # De Morgan's laws for composites

A selector is a sequence with success and failure swapped, on its children and on itself, and a
parallel that requires all its children is one that requires one of them, in the same way.

* **`Machine.Inverts m inv`** — `inv` wraps machines so that success and failure are swapped.
* **`Composite.Dual`**, **`Policy.Dual`** — the composites and the policies that swap places.
* **`Composite.Dual.tick`** — one tick of a composite and of its dual over wrapped children.
* **`Node.selector_parallel_duality`** — the laws over whole runs. -/

namespace Instinct

/-! ## Swapping what children report -/

/-- **`inv` swaps success and failure** of machines, and does nothing else. -/
structure Machine.Inverts {N G : Type} (m : Machine N G) (inv : N → N) : Prop where
  tick : ∀ f n w, m.tick f (inv n) w =
    ⟨(m.tick f n w).status.invert, inv (m.tick f n w).node, (m.tick f n w).world⟩
  reset : ∀ n, m.reset (inv n) = inv (m.reset n)
  onReset : ∀ n, m.onReset (inv n) = m.onReset n

section Loops

variable {N G : Type} {m : Machine N G} {inv : N → N}

/-- A walk over swapped children goes as far as one over the children themselves. -/
theorem Machine.Inverts.walk (h : m.Inverts inv) (goOn : Status) (f : Frame) (cs : List N)
    (w : World G) :
    Instinct.walk m goOn.invert f (cs.map inv) w =
      ⟨(Instinct.walk m goOn f cs w).status.invert, (Instinct.walk m goOn f cs w).passed,
        (Instinct.walk m goOn f cs w).children.map inv, (Instinct.walk m goOn f cs w).world⟩ := by
  induction cs generalizing w with
  | nil => rfl
  | cons c cs ih =>
    -- swapping is its own inverse, so no two statuses fall together
    have hinj : (m.tick f c w).status.invert = goOn.invert ↔ (m.tick f c w).status = goOn := by
      constructor
      · intro heq
        rw [← Status.invert_invert (m.tick f c w).status, heq, Status.invert_invert]
      · intro heq
        rw [heq]
    rw [List.map_cons, Instinct.walk, Instinct.walk, h.tick]
    dsimp only
    by_cases hgo : (m.tick f c w).status = goOn
    · rw [if_pos (hinj.mpr hgo), if_pos hgo, ih]
      rfl
    · rw [if_neg (fun heq => hgo (hinj.mp heq)), if_neg hgo]
      rfl

/-- Ticking all swapped children gives the swapped statuses. -/
theorem Machine.Inverts.tickAll (h : m.Inverts inv) (f : Frame) (cs : List N) (w : World G) :
    m.tickAll f (cs.map inv) w =
      ((m.tickAll f cs w).1.map Status.invert, (m.tickAll f cs w).2.1.map inv,
        (m.tickAll f cs w).2.2) := by
  induction cs generalizing w with
  | nil => rfl
  | cons c cs ih =>
    rw [List.map_cons, Machine.tickAll, Machine.tickAll, h.tick]
    dsimp only
    rw [ih]
    rfl

/-- Resetting swapped children is swapping reset ones. -/
theorem Machine.Inverts.resetAll (h : m.Inverts inv) (cs : List N) :
    (cs.map inv).map m.reset = (cs.map m.reset).map inv := map_reset_map h.reset cs

/-- The game is told the same when swapped children are reset. -/
theorem Machine.Inverts.onResetAll (h : m.Inverts inv) (cs : List N) :
    m.onResetAll (cs.map inv) = m.onResetAll cs := onResetAll_map h.onReset cs

/-- Ticking all children gives one status for each. -/
theorem Machine.length_tickAll (m : Machine N G) (f : Frame) (cs : List N) (w : World G) :
    (m.tickAll f cs w).1.length = cs.length := by
  induction cs generalizing w with
  | nil => rfl
  | cons c cs ih =>
    rw [Machine.tickAll, List.length_cons, List.length_cons, ih]

end Loops

/-! ## Counting swapped statuses -/

/-- A status is counted among statuses as the swapped one is among the swapped. -/
theorem Status.count_invert (s : Status) (statuses : List Status) :
    (statuses.map Status.invert).count s.invert = statuses.count s := by
  refine List.count_map_of_injective statuses Status.invert (fun a b heq => ?_) s
  rw [← Status.invert_invert a, heq, Status.invert_invert]

/-- Every status is one of three. -/
theorem Status.count_total (statuses : List Status) :
    statuses.count .success + statuses.count .failure + statuses.count .running =
      statuses.length := by
  induction statuses with
  | nil => rfl
  | cons s statuses ih =>
    cases s <;> simp only [List.count_cons, List.length_cons] <;> simp <;> omega

/-- No status counts as a success and as a failure. -/
theorem Status.count_add_count_le (statuses : List Status) :
    statuses.count .success + statuses.count .failure ≤ statuses.length := by
  have htotal := count_total statuses
  omega

/-- **The policies that swap places.** -/
inductive Policy.Dual : Policy → Policy → Prop
  | one : Dual .requireOne .requireAll
  | all : Dual .requireAll .requireOne

/-- Whether one child succeeded and whether all did are swapped, for no children too. -/
theorem Policy.verdict_requireAll {n successes failures : Nat} (hcount : successes + failures ≤ n) :
    requireAll.verdict n failures successes
      = (requireOne.verdict n successes failures).invert := by
  -- with no children one success can never be had, and all of none are had at once
  have hone : n < successes + n ↔ 1 ≤ successes := by omega
  have hall : n < failures + 1 ↔ n ≤ failures := by omega
  simp only [Policy.verdict, Policy.required, hone, hall]
  by_cases hs : 1 ≤ successes
  · rw [if_neg (by omega), if_pos hs, if_pos hs]
    rfl
  · rw [if_neg hs, if_neg hs]
    by_cases hf : n ≤ failures
    · rw [if_pos hf, if_pos hf]
      rfl
    · rw [if_neg hf, if_neg hf]
      rfl

/-- Verdicts by dual policies on swapped counts are swapped. -/
theorem Policy.Dual.verdict {p p' : Policy} (h : Policy.Dual p p') {n successes failures : Nat}
    (hcount : successes + failures ≤ n) :
    p'.verdict n failures successes = (p.verdict n successes failures).invert := by
  cases h with
  | one => exact Policy.verdict_requireAll hcount
  | all => rw [Policy.verdict_requireAll (by omega), Status.invert_invert]

/-! ## Dual composites -/

/-- **The composites that swap places**, by what the first was as it was built. -/
inductive Composite.Dual : (built : Composite) → Composite → Composite → Prop
  | sequence {cursor} : Dual (.sequence 0) (.sequence cursor) (.selector cursor)
  | selector {cursor} : Dual (.selector 0) (.selector cursor) (.sequence cursor)
  | parallel {p p'} (policy : Policy.Dual p p') :
      Dual (.parallel p) (.parallel p) (.parallel p')

/-- Dual composites stay dual when they are reset. -/
theorem Composite.Dual.reset {built c c' : Composite} (h : Composite.Dual built c c') :
    Composite.Dual built c.reset c'.reset := by
  cases h with
  | sequence => exact .sequence
  | selector => exact .selector
  | parallel hp => exact .parallel hp

section Composites

variable {N G : Type} {m : Machine N G} {inv : N → N} {built c c' : Composite}

/-- What a tick of a composite and one of its dual have in common. -/
structure Composite.DualOutcomes (inv : N → N) (built : Composite)
    (o o' : Outcome (Composite × List N) G) : Prop where
  status : o'.status = o.status.invert
  memory : Composite.Dual built o.node.1 o'.node.1
  children : o'.node.2 = o.node.2.map inv
  world : o'.world = o.world

/-- **Dual composites conclude alike**: with swapped statuses, and over the same children. -/
theorem Composite.Dual.conclude (h : m.Inverts inv) (hc : Composite.Dual built c c')
    (cs : List N) (status : Status) (w : World G) :
    Composite.DualOutcomes inv built (c.conclude m cs status w)
      (c'.conclude m (cs.map inv) status.invert w) where
  status := rfl
  memory := hc.reset
  children := h.resetAll cs
  world := by
    show w.mapGame (m.onResetAll (cs.map inv)) = w.mapGame (m.onResetAll cs)
    rw [h.onResetAll]

/-- A composite that walks over its children and its dual stop at the same child. -/
theorem Composite.Dual.tickInOrder (h : m.Inverts inv) {make make' : Nat → Composite}
    (hmake : ∀ i, Composite.Dual built (make i) (make' i)) (goOn : Status) (f : Frame)
    (cursor : Nat) (cs : List N) (w : World G) :
    Composite.DualOutcomes inv built (Composite.tickInOrder m make goOn f cursor cs w)
      (Composite.tickInOrder m make' goOn.invert f cursor (cs.map inv) w) := by
  have hrunning (s : Status) : s.invert = .running ↔ s = .running := by
    cases s <;> simp [Status.invert]
  simp only [Composite.tickInOrder, ← List.map_drop, ← List.map_take, h.walk, hrunning,
    ← List.map_append]
  split
  · exact ⟨rfl, hmake _, rfl, rfl⟩
  · -- any position will do, since the reset goes back to the first child
    exact Composite.Dual.conclude h (hmake 0) _ _ _

/-- **Dual parallels**: what one counts as successes, the other counts as failures. -/
theorem Composite.Dual.tickParallel (h : m.Inverts inv) {p p' : Policy} (hp : Policy.Dual p p')
    (f : Frame) (cs : List N) (w : World G) :
    Composite.DualOutcomes inv (.parallel p) (Composite.tickParallel m p f cs w)
      (Composite.tickParallel m p' f (cs.map inv) w) := by
  -- at most as many successes and failures as children: the verdict needs it
  have hcount := Status.count_add_count_le (m.tickAll f cs w).1
  rw [m.length_tickAll f cs w] at hcount
  have hsuccesses := Status.count_invert .failure (m.tickAll f cs w).1
  have hfailures := Status.count_invert .success (m.tickAll f cs w).1
  simp only [Status.invert] at hsuccesses hfailures
  simp only [Composite.tickParallel, h.tickAll, List.length_map, hsuccesses, hfailures,
    hp.verdict hcount]
  cases p.verdict cs.length ((m.tickAll f cs w).1.count .success)
      ((m.tickAll f cs w).1.count .failure) with
  | running => exact ⟨rfl, .parallel hp, rfl, rfl⟩
  | success => exact Composite.Dual.conclude h (.parallel hp) _ .success _
  | failure => exact Composite.Dual.conclude h (.parallel hp) _ .failure _

/-- **One tick of a composite and of its dual** over children whose statuses are swapped. -/
theorem Composite.Dual.tick (h : m.Inverts inv) (hc : Composite.Dual built c c') (f : Frame)
    (cs : List N) (w : World G) :
    Composite.DualOutcomes inv built (c.tick m f cs w) (c'.tick m f (cs.map inv) w) := by
  cases hc with
  -- each pair is dual for every cursor that the walk may leave behind
  | @sequence cursor =>
    have hmake (i : Nat) : Composite.Dual _ (.sequence i) (.selector i) := .sequence
    exact Composite.Dual.tickInOrder h hmake .success f cursor cs w
  | @selector cursor =>
    have hmake (i : Nat) : Composite.Dual _ (.selector i) (.sequence i) := .selector
    exact Composite.Dual.tickInOrder h hmake .failure f cursor cs w
  | parallel hp => exact Composite.Dual.tickParallel h hp f cs w

end Composites

/-! ## Dual nodes -/

namespace Node

variable {G : Type}

/-- A node with its success and failure swapped. -/
def inverted (n : Node G) : Node G := inverter (some n)

/-- One tick of a node around which success and failure are swapped. -/
theorem tick_inverter (title : Option String) (n : Node G) (f : Frame) (w : World G) :
    (decorator title .inverter (some n)).tick f w =
      ⟨(n.tick f w).status.invert, decorator title .inverter (some (n.tick f w).node),
        (n.tick f w).world⟩ := by
  rw [tick_eq]
  rfl

/-- Resetting an inverter resets the node under it. -/
theorem reset_inverter (title : Option String) (n : Node G) :
    (decorator title .inverter (some n)).reset = decorator title .inverter (some n.reset) := by
  rw [reset_eq]
  rfl

/-- Resetting an inverter tells the game what resetting the node under it does. -/
theorem onReset_inverter (title : Option String) (n : Node G) :
    (decorator title .inverter (some n)).onReset = n.onReset := by
  rw [onReset_eq]
  rfl

/-- Nodes swap success and failure when an inverter is put around them. -/
theorem inverts_inverted : (asMachine : Machine (Node G) G).Inverts inverted where
  tick f n w := tick_inverter none n f w
  reset n := reset_inverter none n
  onReset n := onReset_inverter none n

/-- **A composite and its dual**: a node in which both the children and the dual composite itself
have success and failure swapped. -/
inductive Dual (built : Composite) : Node G → Node G → Prop
  | intro {c c'} (memory : Composite.Dual built c c') (children : List (Node G)) :
      Dual built (composite none c children)
        (inverter (some (composite none c' (children.map inverted))))

variable {built : Composite} {n n' : Node G}

/-- **Dual nodes report the same** in the same world, leave the same world and stay dual. -/
theorem Dual.tick (h : Dual built n n') (f : Frame) (w : World G) :
    (n'.tick f w).status = (n.tick f w).status ∧ Dual built (n.tick f w).node (n'.tick f w).node ∧
      (n'.tick f w).world = (n.tick f w).world := by
  obtain ⟨hc, cs⟩ := h
  obtain ⟨hstatus, hmemory, hchildren, hworld⟩ := hc.tick inverts_inverted f cs w
  rw [inverter, tick_inverter, tick_eq, tick_eq]
  simp only [tickLayer, Outcome.map]
  -- the composite inside reports the opposite, and is swapped once more outside
  rw [hstatus, hchildren, Status.invert_invert]
  exact ⟨rfl, ⟨hmemory, _⟩, hworld⟩

/-- Dual nodes stay dual when they are reset, and tell the game the same. -/
theorem Dual.reset (h : Dual built n n') :
    Dual built n.reset n'.reset ∧ n'.onReset = n.onReset := by
  obtain ⟨hc, cs⟩ := h
  rw [inverter, reset_inverter, onReset_inverter, reset_eq, reset_eq, onReset_eq, onReset_eq]
  refine ⟨?_, inverts_inverted.onResetAll cs⟩
  rw [resetLayer, resetLayer, inverts_inverted.resetAll]
  exact ⟨hc.reset, _⟩

/-- Dual nodes stay dual, in the same world, whatever is done to both. -/
theorem Dual.run (h : Dual built n n') (moves : List (Move G)) (w : World G) :
    (asMachine.run moves n' w).1 = (asMachine.run moves n w).1 ∧
      Dual built (asMachine.run moves n w).2.1 (asMachine.run moves n' w).2.1 ∧
      (asMachine.run moves n' w).2.2 = (asMachine.run moves n w).2.2 := by
  -- the moves of both runs are the same ones
  have hmoves : List.Forall₂ Eq moves moves := by rw [List.forall₂_eq_eq_eq]
  refine runSteps_together (Q := fun (s t : Node G × World G) => Dual built s.1 t.1 ∧ t.2 = s.2)
    ?_ hmoves ⟨h, rfl⟩
  rintro a _ ⟨n, w⟩ ⟨n', w'⟩ rfl ⟨hn, hw⟩
  obtain rfl : w = w' := hw.symm
  -- a tick is `Dual.tick`, and a reset changes both the nodes and the world
  cases a with
  | tick frame =>
    obtain ⟨hstatus, hnode, hworld⟩ := hn.tick frame w
    exact ⟨congrArg some hstatus, hnode, hworld⟩
  | reset =>
    obtain ⟨hnode, hgame⟩ := hn.reset
    refine ⟨rfl, hnode, ?_⟩
    show w.mapGame n'.onReset = w.mapGame n.onReset
    rw [hgame]
  | meanwhile change => exact ⟨rfl, hn, rfl⟩

/-- What two dual nodes leave behind, written out. -/
theorem Dual.run_eq (h : Dual built n n') (moves : List (Move G)) (w : World G) :
    ∃ statuses c c' ds w',
      asMachine.run moves n w = (statuses, composite none c ds, w') ∧
      asMachine.run moves n' w =
        (statuses, inverter (some (composite none c' (ds.map fun c => inverter (some c)))), w') ∧
      Composite.Dual built c c' := by
  obtain ⟨hstatuses, hnodes, hworld⟩ := h.run moves w
  -- what the run gives is taken apart only as far as the three facts about it speak of it
  generalize asMachine.run moves n w = r at *
  generalize asMachine.run moves n' w = r' at *
  obtain ⟨statuses, n, w⟩ := r
  obtain ⟨statuses', n', w'⟩ := r'
  dsimp only at hstatuses hnodes hworld
  subst hstatuses hworld
  obtain ⟨hc, ds⟩ := hnodes
  exact ⟨_, _, _, ds, _, rfl, rfl, hc⟩

/-- **De Morgan's laws over whole runs**, for any list of children. A selector reports the same as a
sequence with success and failure swapped on its children and on itself; after any run the world is
the same, and so are the cursors and the children. In the same way a parallel that requires all its
children is one that requires one of them. -/
theorem selector_parallel_duality (cs : List (Node G)) (moves : List (Move G)) (w : World G) :
    (∃ statuses cursor ds w',
      asMachine.run moves (selector cs) w
        = (statuses, composite none (.selector cursor) ds, w') ∧
      asMachine.run moves (inverter (some (sequence (cs.map fun c => inverter (some c))))) w
        = (statuses, inverter (some (composite none (.sequence cursor)
            (ds.map fun c => inverter (some c)))), w')) ∧
    ∃ statuses ds w',
      asMachine.run moves (parallel .requireAll cs) w
        = (statuses, parallel .requireAll ds, w') ∧
      asMachine.run moves
          (inverter (some (parallel .requireOne (cs.map fun c => inverter (some c))))) w
        = (statuses, inverter (some (parallel .requireOne
            (ds.map fun c => inverter (some c)))), w') := by
  constructor
  -- each law is one pair of dual nodes, and what is dual to a kind tells the kind in the end
  · have hdual : Dual (.selector 0) (selector cs)
        (inverter (some (sequence (cs.map fun c => inverter (some c))))) := ⟨.selector, cs⟩
    obtain ⟨statuses, c, c', ds, w', hrun, hrun', hc⟩ := hdual.run_eq moves w
    cases hc with
    | @selector cursor => exact ⟨statuses, cursor, ds, w', hrun, hrun'⟩
  · have hdual : Dual (.parallel .requireAll) (parallel .requireAll cs)
        (inverter (some (parallel .requireOne (cs.map fun c => inverter (some c))))) :=
      ⟨.parallel .all, cs⟩
    obtain ⟨statuses, c, c', ds, w', hrun, hrun', hc⟩ := hdual.run_eq moves w
    cases hc with
    | parallel hp =>
      cases hp with
      | all => exact ⟨statuses, ds, w', hrun, hrun'⟩

end Node

end Instinct
