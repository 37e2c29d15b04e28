import Instinct.Node.Kinds
import Instinct.Proofs.Flattening
import Instinct.Proofs.Throughout

/-! # Nested sequences and nested selectors

* **`Machine.visited`** — machines that write down each of their ticks: which machine it was, the
  state it was in, what it reported and what it made of the blackboard.
* **`Node.discreet`** — nodes whose resets leave the game alone are discreet.
* **`Node.houses`** — nodes have composites of nodes among their own.
* **`Node.run_composite`** — the run of a composite as a node.
* **`Composite.flattening`** — a sequence in a sequence and a selector in a selector. -/

namespace Instinct

variable {N G V : Type}

/-! ## (1) Machines that write down their ticks -/

/-- **One tick of one of several machines**, as seen from outside. -/
structure Visit (N : Type) where
  /-- The number of the machine. -/
  number : Nat
  /-- The machine as it was. -/
  machine : N
  /-- The blackboard as it was. -/
  before : Blackboard
  /-- What the tick reported. -/
  status : Status
  /-- What the tick made of the blackboard. -/
  after : Blackboard

/-- A game and the ticks so far, oldest first. -/
structure Visited (N G : Type) where
  game : G
  visits : List (Visit N) := []

/-- The stage without what was written down. -/
def Stage.unvisited (s : Stage (Visited N G)) : Stage G where
  game := s.game.game
  notices := s.notices
  streamed := s.streamed

/-- **Machines that bear numbers and write down each of their ticks.** -/
def Machine.visited (m : Machine N G) : Machine (Nat × N) (Visited N G) where
  tick f n w :=
    -- the machine itself sees nothing of what is written down
    let o := m.tick f n.2 ⟨w.board, w.stage.unvisited⟩
    let visit : Visit N := ⟨n.1, n.2, w.board, o.status, o.world.board⟩
    let stage : Stage (Visited N G) :=
      { game := { game := o.world.game, visits := w.game.visits ++ [visit] }
        notices := o.world.stage.notices
        streamed := o.world.stage.streamed }
    ⟨o.status, (n.1, o.node), ⟨o.world.board, stage⟩⟩
  reset n := (n.1, m.reset n.2)
  onReset n g := { g with game := m.onReset n.2 g.game }
  name n := m.name n.2

/-- What is seen of the stage, and all that was written down. -/
def Stage.visitedView (view : Stage G → V) (s : Stage (Visited N G)) : V × List (Visit N) :=
  (view s.unvisited, s.game.visits)

/-- Writing down its ticks does not make a machine less discreet. -/
theorem Machine.Discreet.visited {m : Machine N G} {P : N → Prop} {view : Stage G → V}
    (h : m.Discreet P view) : m.visited.Discreet (fun n => P n.2) (Stage.visitedView view) where
  tick f n w w' hn hw := by
    -- the view of a visited stage is the view of the bare one together with its visits
    have hstage : view w'.stage.unvisited = view w.stage.unvisited := congrArg Prod.fst hw.stage
    have hvisits : w'.game.visits = w.game.visits := congrArg Prod.snd hw.stage
    have hbare : World.Agree view ⟨w.board, w.stage.unvisited⟩ ⟨w'.board, w'.stage.unvisited⟩ :=
      ⟨hw.board, hstage⟩
    obtain ⟨hstatus, hnode, hworld⟩ := h.tick f hn hbare
    refine ⟨hstatus, congrArg (n.1, ·) hnode, hworld.board, Prod.ext hworld.stage ?_⟩
    -- the same visit is written down on both sides
    show w'.game.visits ++ [_] = w.game.visits ++ [_]
    rw [hvisits, hstatus, hworld.board, hw.board]
  keep f n w hn := h.keep f _ hn
  reset hn := h.reset hn
  again {n} hn := congrArg (n.1, ·) (h.again hn)
  unseen {n} hn s := Prod.ext (h.unseen hn s.unvisited) rfl

/-! ## (2) Nodes -/

/-- Where the whole stage is in view, worlds that look the same are the same. -/
theorem World.Agree.eq {w w' : World G} (h : w.Agree (id : Stage G → Stage G) w') : w' = w := by
  obtain ⟨board, stage⟩ := w
  obtain ⟨board', stage'⟩ := w'
  obtain ⟨rfl, hstage⟩ := h
  obtain rfl : stage' = stage := hstage
  rfl

/-- Then every move looks at no more than what is in view. -/
theorem Move.respects_id (a : Move G) : a.Respects (id : Stage G → Stage G) := by
  cases a with
  | tick frame => exact trivial
  | reset => exact trivial
  | meanwhile change =>
    intro w w' h
    rw [h.eq]
    exact .refl id _

namespace Node

/-- **Nodes whose resets leave the game alone are discreet**, with the whole stage in view. -/
theorem discreet :
    (asMachine : Machine (Node G) G).Discreet (·.Everywhere Unshared) (id : Stage G → Stage G) where
  tick f n w w' _ hw := by
    rw [hw.eq]
    exact ⟨rfl, rfl, .refl id _⟩
  keep f _ w hn := everywhere_tick kept_unshared hn f w
  reset hn := everywhere_reset_of_kept kept_unshared hn
  again {n} _ := n.reset_reset
  unseen hn s := by
    show s.mapGame _ = s
    have hgame : asMachine.onReset _ s.game = s.game := onReset_of_unshared hn s.game
    rw [Stage.mapGame, hgame]

/-- Nodes have composites of nodes among their own. -/
theorem houses : (asMachine : Machine (Node G) G).Houses asMachine id (composite none) where
  tick _ _ _ := rfl
  reset _ := rfl
  onReset _ := rfl
  tick_group f c ns w := tick_eq f (composite none c ns) w
  reset_group c ns := reset_eq (composite none c ns)
  onReset_group c ns := onReset_eq (composite none c ns)

/-- A node does what a composite of its children does. -/
theorem embeds_composite (title : Option String) :
    (asMachine : Machine (Node G) G).composite.Embeds asMachine
      fun c => composite title c.1 c.2 where
  tick f c w := tick_eq f (composite title c.1 c.2) w
  reset c := reset_eq (composite title c.1 c.2)
  onReset c := onReset_eq (composite title c.1 c.2)

/-- **The run of a composite as a node.** -/
theorem run_composite (title : Option String) (moves : List (Move G)) (c : Composite)
    (cs : List (Node G)) (w : World G) :
    asMachine.run moves (composite title c cs) w =
      let r := asMachine.composite.run moves (c, cs) w
      (r.1, composite title r.2.1.1 r.2.1.2, r.2.2) := (embeds_composite title).run moves (c, cs) w

end Node

/-- **A child that counts its resets** in the game, and succeeds whatever the count is. -/
def Node.resetCounter : Node Nat :=
  .custom
    { name := "resetCounter", arity := fun _ => .none, attachable := false
      enter := fun _ b g => (b, g), conclude := fun _ g => (.success, g), onReset := (· + 1) } []

/-- A counter of resets succeeds at once and touches nothing. -/
theorem Node.tick_resetCounter (f : Frame) (w : World Nat) :
    resetCounter.tick f w = ⟨.success, resetCounter, w⟩ := tick_eq f _ w

/-- It is discreet where the game is out of view. -/
theorem Node.discreet_resetCounter : asMachine.Discreet (· = resetCounter) Stage.notices where
  tick f n w w' hn hw := by
    subst hn
    -- its ticks do nothing at all, so only its resets remain to be hidden
    have htick : ∀ w, asMachine.tick f resetCounter w = ⟨.success, resetCounter, w⟩ :=
      tick_resetCounter f
    rw [htick, htick]
    exact ⟨rfl, rfl, hw⟩
  keep f n w hn := by
    subst hn
    exact congrArg Outcome.node (tick_resetCounter f w)
  reset hn := by
    subst hn
    exact reset_eq resetCounter
  again {n} _ := n.reset_reset
  unseen _ _ := rfl

/-! ## (3) Flattening -/

open Node in
/-- **Flattening.** In a sequence, some of the children may be put into a sequence of their own, and
in a selector into a selector, with no difference to be seen; the lists of children may be empty.

Over any machines that are discreet: at any time of any run the statuses reported so far are the
same, the same children were ticked in the same order in the same state, each tick made the same of
the same blackboard, and the stage looks the same. Over nodes whose own resets leave the game alone,
which are all but nodes of the game's own making, the worlds are the same as a whole. -/
theorem Composite.flattening {c : Composite} (hc : c = .sequence 0 ∨ c = .selector 0) :
    (∀ {N G V : Type} {m : Machine N G} {P : N → Prop} {view : Stage G → V}, m.Discreet P view →
      ∀ xs ys zs : List (Nat × N), (∀ n ∈ xs ++ ys ++ zs, P n.2) →
      ∀ {moves : List (Move (Visited N G))}, (∀ a ∈ moves, a.Respects (Stage.visitedView view)) →
      ∀ w : World (Visited N G),
        let flat := m.visited.composite.run moves (c, xs ++ ys ++ zs) w
        let nested := (m.visited.either m.visited.composite).composite.run moves
          (c, xs.map .inl ++ [.inr (c, ys)] ++ zs.map .inl) w
        nested.1 = flat.1 ∧ nested.2.2.board = flat.2.2.board ∧
          nested.2.2.game.visits = flat.2.2.game.visits ∧
          view nested.2.2.stage.unvisited = view flat.2.2.stage.unvisited) ∧
    ∀ {G : Type} (xs ys zs : List (Node G)), (∀ n ∈ xs ++ ys ++ zs, n.Everywhere Unshared) →
      ∀ (moves : List (Move G)) (w : World G),
        let flat := asMachine.run moves (composite none c (xs ++ ys ++ zs)) w
        let nested := asMachine.run moves (composite none c (xs ++ [composite none c ys] ++ zs)) w
        nested.1 = flat.1 ∧ nested.2.2 = flat.2.2 := by
  -- the two kinds differ in the status that moves on, and in nothing that matters here
  obtain ⟨make, goOn, horder, rfl⟩ : ∃ make goOn, InOrder make goOn ∧ c = make 0 := by
    rcases hc with rfl | rfl
    · exact ⟨_, _, .sequence, rfl⟩
    · exact ⟨_, _, .selector, rfl⟩
  constructor
  · -- the visits are part of the view here, and so are the same as well
    intro N G V m P view hm xs ys zs hcs moves hmoves w
    obtain ⟨hstatuses, hboard, hstage⟩ :=
      hm.visited.flatten m.visited.houses_either horder hcs hmoves (w := w)
    exact ⟨hstatuses, hboard, congrArg Prod.snd hstage, congrArg Prod.fst hstage⟩
  · -- nothing is hidden here: library nodes are unseen even in the whole stage
    intro G xs ys zs hcs moves w
    obtain ⟨hstatuses, hworld⟩ :=
      discreet.flatten houses horder hcs (fun a _ => a.respects_id) (w := w)
    rw [List.map_id, List.map_id] at hstatuses hworld
    rw [run_composite, run_composite]
    exact ⟨hstatuses, hworld.eq⟩

open Node in
/-- A sequence whose second child is in a sequence of its own, and so is reset once more whenever
the outer sequence is done; and a selector with a wait in a selector. -/
theorem Composite.flattening_counted :
    let m := asMachine.visited
    let moves : List (Move (Visited (Node Nat) Nat)) :=
      [.tick (.atMillis 0), .reset, .tick (.atMillis 5)]
    let w : World (Visited (Node Nat) Nat) := ⟨.empty, { game := { game := 0 } }⟩
    let flat := m.composite.run moves
      (.sequence 0, [(0, resetCounter), (1, resetCounter), (2, resetCounter)]) w
    let nested := (m.either m.composite).composite.run moves
      (.sequence 0, [.inl (0, resetCounter), .inr (.sequence 0, [(1, resetCounter)]),
        .inl (2, resetCounter)]) w
    let soon : Node Unit := .wait (.ofMillis 5)
    let waits : List (Move Unit) := [.tick (.atMillis 0), .tick (.atMillis 5)]
    asMachine.Discreet (· = resetCounter) Stage.notices ∧
    (∀ a ∈ moves, a.Respects (Stage.visitedView Stage.notices)) ∧
    nested.1 = flat.1 ∧ nested.2.2.game.visits = flat.2.2.game.visits ∧
    flat.2.2.game.game = 9 ∧ nested.2.2.game.game = 11 ∧
    soon.Everywhere Unshared ∧
    (asMachine.run waits (Node.selector [soon, Node.selector [soon]]) ⟨.empty, { game := () }⟩).1
      = (asMachine.run waits (Node.selector [soon, soon]) ⟨.empty, { game := () }⟩).1 := by
  intro m moves w flat nested soon waits
  have hmoves : ∀ a ∈ moves, a.Respects (Stage.visitedView Stage.notices) := by
    simp [moves, Move.Respects]
  have hsoon : soon.Everywhere Unshared := by
    simp [soon, Node.wait, Unshared]
  obtain ⟨hmachines, -⟩ := flattening (.inl rfl)
  obtain ⟨-, hnodes⟩ := flattening (.inr rfl)
  obtain ⟨hstatuses, -, hvisits, -⟩ := hmachines discreet_resetCounter
    [(0, resetCounter)] [(1, resetCounter)] [(2, resetCounter)]
    (by simp) hmoves w
  obtain ⟨hwaits, -⟩ := hnodes [soon] [soon] [] (by simpa using hsoon) waits
    ⟨.empty, { game := () }⟩
  refine ⟨discreet_resetCounter, hmoves, hstatuses, hvisits, ?_, ?_, hsoon, hwaits⟩
  · decide +kernel
  · decide +kernel

end Instinct
