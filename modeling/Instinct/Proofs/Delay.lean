import Instinct.Node.Kinds
import Instinct.Proofs.Coupling.Exact
import Instinct.Proofs.Runs

/-! # The clock may start anywhere

Timers use differences of times only. A run whose clock is ahead reports the same and does the same,
and what it remembers differs in the stamps only.

* **`Node.delayed D n`**, **`Tree.delayed`** — the same with `D` added to every stamp.
* **`Node.Timeless`** — callbacks that do not read the time; **`Node.Unstamped`** — no stamp yet.
* **`Coupling.Nodes.eq_delayed`** — nodes alike but for stamps that are `D` apart.
* **`Tree.run_delayed`** — the run with every tick `D` later. -/

namespace Instinct

/-! ## Later stamps -/

/-- A stamp, if there is one, moved to later. -/
def Duration.delayed (D : Duration) (stamp : Option Duration) : Option Duration :=
  stamp.map (· + D)

section Delayed

variable {N G : Type}

/-- A decorator's memory with its stamps moved. -/
def Decorator.delayed (D : Duration) : Decorator G → Decorator G
  | timeout limit started => timeout limit (D.delayed started)
  | cooldown duration finished => cooldown duration (D.delayed finished)
  | d => d

/-- A leaf's memory with its stamps moved. -/
def Leaf.delayed (D : Duration) : Leaf G → Leaf G
  | wait duration started => wait duration (D.delayed started)
  | l => l

/-- A pattern with the time of its last start moved; `below` moves the stamps in its tree. -/
def Pattern.delayed (D : Duration) (below : N → N) (p : Pattern N G) : Pattern N G :=
  { p with
    tree := { p.tree with root := below p.tree.root }
    lastUsed := D.delayed p.lastUsed }

/-- A leaf that drives patterns with the times of their last starts moved. -/
def Selection.delayed (D : Duration) (below : N → N) (s : Selection N G) : Selection N G :=
  { s with repertoire := ⟨s.repertoire.groups.map fun ps => ps.map (Pattern.delayed D below)⟩ }

namespace Node

/-- A node with its own stamps moved; `below` moves those of the nodes right below. -/
def delayedLayer (D : Duration) (below : Node G → Node G) : Node G → Node G
  | composite title c children => composite title c (children.map below)
  | decorator title d child => decorator title (d.delayed D) (child.map below)
  | leaf title l => leaf title (l.delayed D)
  | patterns title s => patterns title (s.delayed D below)
  | custom c children => custom c (children.map below)

/-- A node with its stamps moved, as far as `levels` levels reach. -/
def delayedTo (D : Duration) : (levels : Nat) → Node G → Node G
  | 0, n => n
  | levels + 1, n => delayedLayer D (delayedTo D levels) n

/-- **A node with `D` added to every stamp** of its subtree. -/
def delayed (D : Duration) (n : Node G) : Node G := delayedTo D n.levels n

/-- A node's own stamps may be moved after those below are. -/
theorem delayedLayer_eq (D : Duration) (f : Node G → Node G) (n : Node G) :
    n.delayedLayer D f = (n.mapBelow f id).delayedLayer D id := by
  cases n with
  | composite title c cs => rw [mapBelow, delayedLayer, delayedLayer, List.map_id]
  | decorator title d c => rw [mapBelow, delayedLayer, delayedLayer, Option.map_id, id]
  | leaf title l => rfl
  -- only the patterns hold what changes below and is delayed as well
  | patterns title s =>
    have hpattern (p : Pattern (Node G) G) :
        p.delayed D f = (p.mapBelow f id).delayed D id := rfl
    simp [mapBelow, delayedLayer, Selection.delayed, Selection.mapBelow, NameMap.Raw.map,
      Function.comp_def, hpattern]
  | custom c cs => rw [mapBelow, delayedLayer, delayedLayer, List.map_id]

/-- A layer is delayed alike by changes that are the same below it. -/
theorem delayedLayer_congr (D : Duration) {f g : Node G → Node G} {n : Node G}
    (hfg : ∀ c ∈ n.beneath, f c = g c) : n.delayedLayer D f = n.delayedLayer D g := by
  have hbelow : n.mapBelow f id = n.mapBelow g id := by
    apply mapBelow_congr hfg
    intro title s hs e he p hp
    rfl
  rw [delayedLayer_eq, hbelow, ← delayedLayer_eq]

/-- The stamps of a node are its own and those of the nodes below. -/
theorem delayed_eq (D : Duration) (n : Node G) : n.delayed D = n.delayedLayer D (delayed D) :=
  unroll (delayedTo D) (delayedLayer D) (fun _ _ => rfl) (fun _ _ _ => delayedLayer_congr D) n

end Node

/-- **A tree with `D` added to every stamp.** -/
def Tree.delayed (D : Duration) (t : Tree (Node G)) : Tree (Node G) :=
  { t with root := t.root.delayed D }

/-- **The same move**, a tick being `D` later. -/
def Move.delayed (D : Duration) : Move G → Move G
  | tick frame => tick { frame with now := frame.now + D }
  | reset => reset
  | meanwhile change => meanwhile change

end Delayed

/-! ## Callbacks that do not read the time -/

/-- **A callback that does not read the time.** -/
def Timeless {A : Type} (callback : Frame → A) : Prop :=
  ∀ (frame : Frame) (now : Duration), callback { frame with now } = callback frame

/-- A source of values that does not read the time. -/
def ValueSource.Timeless {G : Type} : ValueSource G → Prop
  | constant _ => True
  | computed compute => Instinct.Timeless compute

/-- A pattern whose condition does not read the time. -/
def Pattern.Timeless {N G : Type} (p : Pattern N G) : Prop :=
  ∀ c ∈ p.condition, ∀ s : Situation, Instinct.Timeless fun frame => c { s with frame }

namespace Node

variable {G : Type}

/-- **A node none of whose own callbacks reads the time.** -/
def Timeless : Node G → Prop
  | composite _ _ _ => True
  | decorator _ (.conditional guard) _ => Instinct.Timeless guard
  | decorator _ _ _ => True
  | leaf _ (.action deed) => Instinct.Timeless deed
  | leaf _ (.condition test) => Instinct.Timeless test
  | leaf _ (.setValue _ source) => source.Timeless
  | leaf _ _ => True
  | patterns _ s => ∀ e ∈ s.repertoire.groups.entries, ∀ p ∈ e.2, p.Timeless
  | custom c _ => Instinct.Timeless c.enter

/-- The callbacks of a timeless node do not look at the clock. -/
theorem Timeless.callbacks {n : Node G} (h : n.Timeless) : n.Callbacks Instinct.Timeless := by
  unfold Callbacks
  split
  · exact h
  · exact h
  · exact h
  · exact h
  · exact h
  · trivial

/-- **A node without a stamp of its own**, as it is when it was built. -/
def Unstamped (n : Node G) : Prop := n.stamps = []

/-- A node whose own stamps can be moved by `D` without reaching past the end of time. -/
def Delayable (D : Duration) (n : Node G) : Prop :=
  ∀ stamp ∈ n.stamps, stamp.nanos + D.nanos ≤ longestNanos

end Node

namespace Coupling

variable {G : Type} {delay : Nat}

/-! ## Unstamped trees are alike to themselves -/

/-- Frames that go together differ in their times only. -/
theorem Frames.eq_later {f f' : Frame} (hf : (later delay : Coupling G).Frames f f') :
    f' = { f with now := f'.now } := by
  obtain ⟨htick, hdt, -, hseed⟩ := hf
  have hseed := hseed trivial
  cases f
  cases f'
  dsimp only at htick hdt hseed
  rw [htick, hdt, hseed]

/-- A callback that does not read the time cannot tell frames apart that go together. -/
theorem unaffected_later {A : Type} {callback : Frame → A} (h : Timeless callback) :
    (later delay : Coupling G).Unaffected callback := by
  intro f f' hf
  rw [hf.eq_later, h]

/-- **A timeless node without stamps cannot tell the runs apart.** -/
theorem oblivious_later {n : Node G} (ht : n.Timeless) (hu : n.Unstamped) :
    (later delay).Oblivious n where
  blind := blind_of_callbacks (fun _ _ => Iff.rfl) (fun _ => trivial) (fun _ _ _ _ => trivial)
    (ht.callbacks.imp unaffected_later)
  stamped stamp hstamp := by
    rw [hu] at hstamp
    cases hstamp
  random _ _ _ _ _ := trivial
  asked title s hn e he p hp c hc := by
    subst hn
    exact conditions_of_unaffected fun s => unaffected_later (ht e he p hp c hc s)

/-- **A tree without stamps whose callbacks do not read the time is alike to itself**, however far
the clocks are apart. -/
theorem nodes_refl {n : Node G} (ht : n.Everywhere Node.Timeless)
    (hu : n.Everywhere Node.Unstamped) : (later delay).Nodes n n := by
  have hall : n.Everywhere (later delay).Oblivious :=
    (ht.and hu).mono fun _ h => oblivious_later h.1 h.2
  exact nodes_self (fun _ => rfl) (fun _ => rfl) hall

/-! ## Alike but for later stamps -/

variable {D : Duration}

/-- A stamp that goes together with another is that one, delayed. -/
theorem Stamps.eq_delayed {s s' : Option Duration}
    (h : (later D.nanos : Coupling G).Stamps s s') : s' = D.delayed s := by
  cases h with
  | none => rfl
  | @some a b hab =>
    have hab : b.nanos = a.nanos + D.nanos := hab
    -- the later stamp is a duration, so the sum is not cut off
    have hb := b.nanos_le
    refine congrArg some (Duration.ext ?_)
    rw [Duration.nanos_add]
    omega

/-- Decorators that go together are apart by the delay of their stamps. -/
theorem Decorators.eq_delayed {d d' : Decorator G} (h : (later D.nanos).Decorators d d') :
    d' = d.delayed D := by
  cases h with
  | timeout hs => rw [hs.eq_delayed, Decorator.delayed]
  | cooldown hs => rw [hs.eq_delayed, Decorator.delayed]
  | _ => rfl

/-- Leaves that go together are apart by the delay of their stamps. -/
theorem Leaves.eq_delayed {l l' : Leaf G} (h : (later D.nanos).Leaves l l') :
    l' = l.delayed D := by
  cases h with
  | wait hs => rw [hs.eq_delayed, Leaf.delayed]
  | _ => rfl

section Below

variable {below : Node G → Node G}

/-- Patterns that go together are apart by a delay. -/
theorem Patterns.eq_delayed {p p' : Pattern (Node G) G}
    (h : (later D.nanos).Patterns (fun c c' => below c = c') p p') :
    p.delayed D below = p' := by
  obtain ⟨hname, ⟨hroot, hboard, hlast, hticks, hwarns⟩, hpriority, hcooldown, hused, hcondition,
    -⟩ := h
  have hused := hused.eq_delayed
  obtain ⟨_, ⟨_, _, _, _, _⟩, _, _, _, _⟩ := p
  obtain ⟨_, ⟨_, _, _, _, _⟩, _, _, _, _⟩ := p'
  simp only [later] at *
  subst hname hroot hboard hlast hticks hwarns hpriority hcooldown hused hcondition
  rfl

/-- Groups that go together are apart by a delay. -/
theorem Groups.eq_delayed {e e' : String × List (Pattern (Node G) G)}
    (h : (later D.nanos).Groups (fun c c' => below c = c') e e') :
    (e.1, e.2.map (Pattern.delayed D below)) = e' := by
  obtain ⟨hps⟩ := h
  have hall := hps.imp fun p p' hp => hp.eq_delayed
  rw [← List.forall₂_map_left_iff, List.forall₂_eq_eq_eq] at hall
  rw [hall]

/-- Nodes that go together are apart by a delay. -/
theorem Layered.eq_delayed {n n' : Node G}
    (h : (later D.nanos).Layered (fun c c' => below c = c') n n') :
    n' = n.delayedLayer D below := by
  cases h with
  | composite _ hcs =>
    rw [← List.forall₂_map_left_iff, List.forall₂_eq_eq_eq] at hcs
    rw [← hcs, Node.delayedLayer]
  | decorator hd hc =>
    rw [hd.eq_delayed, Node.delayedLayer]
    cases hc with
    | none => rfl
    | some hc => rw [Option.map_some, hc]
  | leaf hl => rw [hl.eq_delayed, Node.delayedLayer]
  -- the leaf itself has no stamp: those of its patterns are delayed one by one
  | patterns hs =>
    obtain @⟨archetype, ⟨⟨es⟩⟩, ⟨⟨es'⟩⟩, running, lastChoice, -, ⟨hes⟩⟩ := hs
    have hall := hes.imp fun e e' he => he.eq_delayed
    rw [← List.forall₂_map_left_iff, List.forall₂_eq_eq_eq] at hall
    dsimp only at hall
    rw [← hall]
    rfl
  | custom _ hcs =>
    rw [← List.forall₂_map_left_iff, List.forall₂_eq_eq_eq] at hcs
    rw [← hcs, Node.delayedLayer]

end Below

/-- **Nodes alike but for stamps that are `D` apart**, written out. -/
theorem Nodes.eq_delayed {n n' : Node G} (h : (later D.nanos).Nodes n n') :
    n' = n.delayed D := by
  induction n using Node.beneath_induction generalizing n' with
  | step n ih =>
    have hbelow := ((nodes_iff n n').mp h).and
      fun c hc c' (hcc : (later D.nanos).Nodes c c') => (ih c hc hcc).symm
    rw [n.delayed_eq]
    exact Layered.eq_delayed (hbelow.imp fun c c' hc => hc.1 c' hc.2)

/-- A stamp that goes together with a later one could be delayed that far. -/
theorem Stamps.delayable {s s' : Option Duration}
    (h : (later D.nanos : Coupling G).Stamps s s') {stamp : Duration} (hstamp : stamp ∈ s) :
    stamp.nanos + D.nanos ≤ longestNanos := by
  cases h with
  | none => cases hstamp
  | @some a b hab =>
    obtain rfl : a = stamp := Option.some.inj hstamp
    have hab : b.nanos = a.nanos + D.nanos := hab
    rw [← hab]
    exact b.nanos_le

/-- No stamp is cut off at the end of time when it is moved. -/
theorem Layered.delayable {R : Node G → Node G → Prop} {n n' : Node G}
    (h : (later D.nanos).Layered R n n') : n.Delayable D := by
  intro stamp hstamp
  -- only the timeout, the cooldown, the wait and the patterns keep stamps
  cases h with
  | composite _ _ => cases hstamp
  | decorator hd _ =>
    cases hd with
    | timeout hs => exact hs.delayable (Option.mem_toList.mp hstamp)
    | cooldown hs => exact hs.delayable (Option.mem_toList.mp hstamp)
    | _ => cases hstamp
  | leaf hl =>
    cases hl with
    | wait hs => exact hs.delayable (Option.mem_toList.mp hstamp)
    | _ => cases hstamp
  | patterns hs =>
    obtain ⟨-, ⟨hgroups⟩⟩ := hs
    obtain ⟨e, he, hstamp⟩ := List.mem_flatMap.mp hstamp
    obtain ⟨p, hp, hused⟩ := List.mem_filterMap.mp hstamp
    obtain ⟨e', ⟨hps⟩⟩ := exists_of_mem hgroups he
    obtain ⟨p', hp'⟩ := exists_of_mem hps hp
    obtain ⟨-, -, -, -, hs, -, -⟩ := hp'
    exact hs.delayable hused
  | custom _ _ => cases hstamp

end Coupling

/-! ## The run with a later clock -/

namespace Tree

variable {G : Type} {D : Duration}

/-- The trees and stages of two runs whose clocks are `D` apart. -/
def Apart (D : Duration) (r r' : Tree (Node G) × Stage G) : Prop :=
  (Coupling.later D.nanos : Coupling G).Trees (Coupling.later D.nanos).Nodes r.1 r'.1 ∧ r.2 = r'.2

/-- One thing done on both sides, a tick being `D` later. -/
theorem Apart.make {r r' : Tree (Node G) × Stage G} (h : Apart D r r') (move : Move G)
    (hmove : ∀ now ∈ move.time?, now.nanos + D.nanos ≤ longestNanos) :
    (make Node.asMachine (move.delayed D) r').1 = (make Node.asMachine move r).1 ∧
      Apart D (make Node.asMachine move r).2 (make Node.asMachine (move.delayed D) r').2 := by
  obtain ⟨t, s⟩ := r
  obtain ⟨t', s'⟩ := r'
  obtain ⟨ht, hs⟩ := h
  cases move with
  -- there is room for the delay, so it is not cut off at the longest duration
  | tick frame =>
    have hframes : (Coupling.later D.nanos : Coupling G).Frames frame
        { frame with now := frame.now + D } := by
      have hnow := hmove frame.now rfl
      refine ⟨rfl, rfl, ?_, fun _ => rfl⟩
      rw [Duration.nanos_add]
      exact Nat.min_eq_left hnow
    obtain ⟨hstatus, htree, hstage⟩ := Coupling.steps_nodes.tree hframes ht hs
    exact ⟨congrArg some hstatus, htree, hstage⟩
  | reset =>
    refine ⟨rfl, Coupling.steps_nodes.resetTree ht, ?_⟩
    obtain ⟨hroot, -, -, -, -⟩ := ht
    have hgame := Coupling.steps_nodes.onReset hroot
    have hs : s = s' := hs
    show s.mapGame (Node.asMachine.onReset t.root) = s'.mapGame (Node.asMachine.onReset t'.root)
    rw [hgame, hs]
  -- the change is the same, and it is made in equal worlds
  | meanwhile change =>
    obtain ⟨hroot, hboard, hlast, hticks, hwarns⟩ := ht
    have hw : (⟨t.board, s⟩ : World G) = ⟨t'.board, s'⟩ := by
      have hboard : t.board = t'.board := hboard
      have hs : s = s' := hs
      rw [hboard, hs]
    refine ⟨rfl, ⟨hroot, ?_, hlast, hticks, hwarns⟩, ?_⟩
    · show (change ⟨t.board, s⟩).board = (change ⟨t'.board, s'⟩).board
      rw [hw]
    · show (change ⟨t.board, s⟩).stage = (change ⟨t'.board, s'⟩).stage
      rw [hw]

/-- **The clock may start anywhere.** If every tick of a run comes `D` later, a tree without stamps
whose callbacks do not read the time reports the same statuses and leaves the same blackboards and
the same stage; what its nodes remember differs in the stamps only, each of which is `D` later. -/
theorem run_delayed {t : Tree (Node G)} (htimeless : t.root.Everywhere Node.Timeless)
    (hunstamped : t.root.Everywhere Node.Unstamped) {moves : List (Move G)}
    (hmoves : ∀ now ∈ Move.times moves, now.nanos + D.nanos ≤ longestNanos) (s : Stage G) :
    t.run Node.asMachine (moves.map (Move.delayed D)) s =
        ((t.run Node.asMachine moves s).1, (t.run Node.asMachine moves s).2.1.delayed D,
          (t.run Node.asMachine moves s).2.2) ∧
      (t.run Node.asMachine moves s).2.1.root.Everywhere (Node.Delayable D) := by
  have hstart : Apart D (t, s) (t, s) :=
    ⟨⟨Coupling.nodes_refl htimeless hunstamped, rfl, rfl, rfl, rfl⟩, rfl⟩
  have hall : List.Forall₂ (fun move move' : Move G => move.delayed D = move' ∧
      ∀ now ∈ move.time?, now.nanos + D.nanos ≤ longestNanos) moves
      (moves.map (Move.delayed D)) := by
    rw [List.forall₂_map_right_iff, List.forall₂_same]
    intro move hmove
    refine ⟨rfl, fun now hnow => hmoves now ?_⟩
    exact List.mem_filterMap.mpr ⟨move, hmove, hnow⟩
  -- the runs go along side by side; at the end the delay is read off the trees
  obtain ⟨hstatuses, ⟨hroot, hboard, hlast, hticks, hwarns⟩, hstage⟩ :=
    runSteps_together (Q := Apart D) (fun move move' r r' hm hr => hm.1 ▸ hr.make move hm.2)
      hall hstart
  refine ⟨?_, hroot.everywhere fun n n' hn => hn.delayable⟩
  have hroot := hroot.eq_delayed
  rw [run, run]
  generalize runSteps (make Node.asMachine) moves (t, s) = r at *
  generalize runSteps (make Node.asMachine) (moves.map (Move.delayed D)) (t, s) = r' at *
  obtain ⟨statuses, ⟨root, board, last, ticks, warns⟩, stage⟩ := r
  obtain ⟨statuses', ⟨root', board', last', ticks', warns'⟩, stage'⟩ := r'
  simp only [Coupling.later] at *
  subst hstatuses hroot hboard hlast hticks hwarns hstage
  rfl

/-- A wait within a cooldown, ticked at the start of time and one hour later. -/
theorem run_delayed_hour :
    let t : Tree (Node Unit) :=
      { root := .cooldown (.ofMillis 10) (some (.wait (.ofMillis 5))) }
    let moves : List (Move Unit) :=
      [.tick (.atMillis 0), .tick (.atMillis 5), .reset, .tick (.atMillis 6)]
    let D : Duration := .ofSeconds 3600
    t.root.Everywhere Node.Timeless ∧ t.root.Everywhere Node.Unstamped ∧
      (∀ now ∈ Move.times moves, now.nanos + D.nanos ≤ longestNanos) ∧
      (t.run Node.asMachine moves { game := () }).1 = [.running, .success, .failure] ∧
      (t.run Node.asMachine (moves.map (Move.delayed D)) { game := () }).1
        = [.running, .success, .failure] := by
  intro t moves D
  have htimeless : t.root.Everywhere Node.Timeless := by
    refine ⟨trivial, fun c hc => ?_⟩
    obtain rfl := List.mem_singleton.mp hc
    exact ⟨trivial, fun _ h => nomatch h⟩
  have hunstamped : t.root.Everywhere Node.Unstamped := by
    refine ⟨rfl, fun c hc => ?_⟩
    obtain rfl := List.mem_singleton.mp hc
    exact ⟨rfl, fun _ h => nomatch h⟩
  have hmoves : ∀ now ∈ Move.times moves, now.nanos + D.nanos ≤ longestNanos := by decide
  have hrun := (run_delayed htimeless hunstamped hmoves { game := () }).1
  refine ⟨htimeless, hunstamped, hmoves, rfl, ?_⟩
  -- the delayed run is told by the run itself, which is computed
  rw [hrun]
  rfl

end Tree

end Instinct
