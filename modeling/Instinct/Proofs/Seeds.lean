import Instinct.Node.Kinds
import Instinct.Proofs.Coupling.Exact
import Instinct.Proofs.Runs

/-! # The seed drives random choices and nothing else

A frame hands the seed of the run to every node, and each pattern is ticked in a frame with a seed
of its own, derived from that. Where nobody chooses at random and no callback looks at it, two runs
under different seeds are the same run.

* **`Node.Seedless`** — no random choice is made here, and no callback looks at the seed.
* **`Coupling.reseeded`** — the runs that differ in their seeds only.
* **`Coupling.nodes_reseeded`** — a seedless tree goes with itself under other seeds.
* **`Move.Reseeded`**, **`Tree.run_reseeded`** — the same moves under other seeds make the same
  run. -/

namespace Instinct

/-! ## Whoever does not look at the seed -/

/-- **A callback that does not look at the seed.** -/
def Seedless {A : Type} (callback : Frame → A) : Prop :=
  ∀ (frame : Frame) (seed : UInt64), callback { frame with seed } = callback frame

/-- A source of values that does not look at the seed. -/
def ValueSource.Seedless {G : Type} : ValueSource G → Prop
  | constant _ => True
  | computed compute => Instinct.Seedless compute

/-- A pattern whose condition does not look at the seed. -/
def Pattern.Seedless {N G : Type} (p : Pattern N G) : Prop :=
  ∀ c ∈ p.condition, ∀ s : Situation, Instinct.Seedless fun frame => c { s with frame }

/-- **A node that makes no random choice**, and none of whose own callbacks looks at the seed. -/
def Node.Seedless {G : Type} : Node G → Prop
  | composite _ c _ => c.isRandom = false
  | decorator _ (.conditional guard) _ => Instinct.Seedless guard
  | decorator _ _ _ => True
  | leaf _ (.action deed) => Instinct.Seedless deed
  | leaf _ (.condition test) => Instinct.Seedless test
  | leaf _ (.setValue _ source) => source.Seedless
  | leaf _ _ => True
  | patterns _ s => ∀ e ∈ s.repertoire.groups.entries, ∀ p ∈ e.2, p.Seedless
  | custom c _ => Instinct.Seedless c.enter

/-- What a seedless node does on its own does not look at the seed. -/
theorem Node.Seedless.callbacks {G : Type} {n : Node G} (h : n.Seedless) :
    n.Callbacks Instinct.Seedless := by
  unfold Node.Callbacks
  split
  · exact h
  · exact h
  · exact h
  · exact h
  · exact h
  · trivial

/-- **The same move under another seed.** -/
inductive Move.Reseeded {G : Type} : Move G → Move G → Prop
  | tick (frame : Frame) (seed : UInt64) : Reseeded (.tick frame) (.tick { frame with seed })
  | reset : Reseeded .reset .reset
  | meanwhile (change : World G → World G) : Reseeded (.meanwhile change) (.meanwhile change)

namespace Coupling

variable {G : Type}

/-! ## Runs that differ in their seeds only -/

/-- **The runs that differ in their seeds only.** -/
def reseeded : Coupling G := { (later 0 : Coupling G) with seeded := False }

/-- The runs are at the same time and tell the same. -/
theorem told_reseeded : (reseeded : Coupling G).Told id := ⟨rfl, fun h => h, fun h => h⟩

/-- Frames that differ in their seeds go together. -/
theorem frames_reseeded (f : Frame) (seed : UInt64) :
    (reseeded : Coupling G).Frames f { f with seed } := ⟨rfl, rfl, rfl, False.elim⟩

/-- Frames that go together differ in their seeds only. -/
theorem Frames.eq_reseeded {f f' : Frame} (hf : (reseeded : Coupling G).Frames f f') :
    f' = { f with seed := f'.seed } := by
  obtain ⟨htick, hdt, hnow, -⟩ := hf
  have hnow : f'.now = f.now := Duration.ext hnow
  cases f
  cases f'
  dsimp only at htick hdt hnow
  rw [htick, hdt, hnow]

/-- A callback that does not look at the seed cannot tell frames apart that go together. -/
theorem unaffected_reseeded {A : Type} {callback : Frame → A} (h : Seedless callback) :
    (reseeded : Coupling G).Unaffected callback := by
  intro f f' hf
  rw [hf.eq_reseeded, h]

/-- **A seedless node cannot tell the runs apart.** -/
theorem oblivious_reseeded {n : Node G} (h : n.Seedless) : (reseeded : Coupling G).Oblivious n where
  blind := blind_of_callbacks (fun _ _ => Iff.rfl) (fun _ => trivial) (fun _ _ _ _ => trivial)
    (h.callbacks.imp unaffected_reseeded)
  stamped _ _ := rfl
  random title c cs hn hrandom := by
    subst hn
    exact absurd (hrandom.symm.trans h) Bool.noConfusion
  asked title s hn e he p hp c hc := by
    subst hn
    exact conditions_of_unaffected fun s => unaffected_reseeded (h e he p hp c hc s)

/-- **A seedless tree goes with itself under other seeds.** -/
theorem nodes_reseeded {n : Node G} (h : n.Everywhere Node.Seedless) :
    (reseeded : Coupling G).Nodes n n :=
  nodes_self (fun _ => rfl) (fun _ => rfl) (h.mono fun _ => oblivious_reseeded)

end Coupling

/-! ## The run under other seeds -/

namespace Tree

variable {G : Type}

/-- What two runs keep that differ in their seeds: trees that go together, on one stage. -/
def SideBySide (r r' : Tree (Node G) × Stage G) : Prop :=
  (Coupling.reseeded : Coupling G).Trees Coupling.reseeded.Nodes r.1 r'.1 ∧ r.2 = r'.2

/-- Trees that go together are the same. -/
theorem SideBySide.eq {r r' : Tree (Node G) × Stage G} (h : SideBySide r r') : r = r' := by
  obtain ⟨⟨root, board, last, ticks, warns⟩, stage⟩ := r
  obtain ⟨⟨root', board', last', ticks', warns'⟩, stage'⟩ := r'
  obtain ⟨⟨hroot, hboard, hlast, hticks, hwarns⟩, hstage⟩ := h
  have hroot := hroot.eq_of_told Coupling.told_reseeded
  have hboard : board = board' := hboard
  have hwarns : warns' = warns := hwarns
  dsimp only at hroot hlast hticks hstage
  rw [hroot, hboard, hlast, hticks, hwarns, hstage]

/-- **One thing done under either seed.** -/
theorem SideBySide.make {r r' : Tree (Node G) × Stage G} (h : SideBySide r r')
    {move move' : Move G} (hmove : move.Reseeded move') :
    (Tree.make Node.asMachine move' r').1 = (Tree.make Node.asMachine move r).1 ∧
      SideBySide (Tree.make Node.asMachine move r).2 (Tree.make Node.asMachine move' r').2 := by
  cases hmove with
  | tick frame seed =>
    obtain ⟨htrees, hstage⟩ := h
    have hframes := Coupling.frames_reseeded (G := G) frame seed
    obtain ⟨hstatus, htrees, hstage⟩ := Coupling.steps_nodes.tree hframes htrees hstage
    exact ⟨congrArg some hstatus, htrees, hstage⟩
  -- resets and changes from outside see no seed at all, so both sides are the same tree
  | reset =>
    obtain rfl := h.eq
    exact ⟨rfl, Coupling.steps_nodes.resetTree h.1, rfl⟩
  | meanwhile change =>
    obtain rfl := h.eq
    obtain ⟨⟨hroot, hboard, hlast, hticks, hwarns⟩, -⟩ := h
    exact ⟨rfl, ⟨hroot, rfl, hlast, hticks, hwarns⟩, rfl⟩

/-- **The seed only drives random choices.** Take a tree in which no node chooses at random and no
callback and no condition looks at the seed, the trees of all patterns included. Whatever is done to
it, under whatever seeds, it reports the same statuses; and what is left of it is the same, and so
is the stage: what its nodes remember, its blackboards and all events recorded there, the game, and
what was told and streamed. -/
theorem run_reseeded {t : Tree (Node G)} (h : t.root.Everywhere Node.Seedless)
    {moves moves' : List (Move G)} (hmoves : List.Forall₂ Move.Reseeded moves moves')
    (s : Stage G) : t.run Node.asMachine moves' s = t.run Node.asMachine moves s := by
  have hstart : SideBySide (t, s) (t, s) :=
    ⟨⟨Coupling.nodes_reseeded h, rfl, rfl, rfl, rfl⟩, rfl⟩
  obtain ⟨hstatuses, hend⟩ := runSteps_together (P := Move.Reseeded) (Q := SideBySide)
    (fun _ _ _ _ hm hr => hr.make hm) hmoves hstart
  exact Prod.ext hstatuses hend.eq.symm

/-- A wolf that bites a target, under the seeds zero, seven and one. -/
theorem run_reseeded_bite :
    let snap : Node Nat := .action "snap" fun _ b g => (.success, b, g + 1)
    let bite : Pattern (Node Nat) Nat :=
      { name := "bite", tree := { root := .sequence [snap, .wait (.ofMillis 5)] },
        condition := some fun s g => (s.target.isSome, g) }
    let t : Tree (Node Nat) :=
      { root := .patternsOf "wolf" (.ofPatterns "wolf" [bite])
        board := Blackboard.empty.set Keys.target ⟨1⟩ }
    let frame (ms : UInt64) : Frame := .atMillis ms
    let moves : List (Move Nat) := [.tick (frame 0), .tick (frame 5)]
    let moves' : List (Move Nat) :=
      [.tick { frame 0 with seed := 7 }, .tick { frame 5 with seed := 1 }]
    t.root.Everywhere Node.Seedless ∧ List.Forall₂ Move.Reseeded moves moves' ∧
      (t.run Node.asMachine moves' { game := 0 }).1 = [.running, .success] ∧
      (t.run Node.asMachine moves' { game := 0 }).2.2.game = 1 := by
  intro snap bite t frame moves moves'
  have hseedless : t.root.Everywhere Node.Seedless := by
    refine ⟨fun e he p hp => ?_, fun c hc => ?_⟩
    · obtain rfl : e = ("wolf", [bite]) := List.mem_singleton.mp he
      obtain rfl := List.mem_singleton.mp hp
      intro c hc s frame seed
      obtain rfl := Option.some.inj hc
      rfl
    · obtain rfl : c = .sequence [snap, .wait (.ofMillis 5)] := List.mem_singleton.mp hc
      simp [snap, Node.sequence, Node.action, Node.wait, Node.Seedless, Seedless,
        Composite.isRandom]
  have hmoves : List.Forall₂ Move.Reseeded moves moves' :=
    .cons (.tick _ 7) (.cons (.tick _ 1) .nil)
  have hrun := run_reseeded hseedless hmoves { game := 0 }
  refine ⟨hseedless, hmoves, ?_, ?_⟩
  · rw [hrun]
    decide +kernel
  · rw [hrun]
    decide +kernel

end Tree

end Instinct
