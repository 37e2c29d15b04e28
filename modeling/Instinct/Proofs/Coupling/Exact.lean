import Instinct.Proofs.Coupling.Alike

/-! # Nodes as machines of any number of levels

A node was made a machine level by level. Run beside itself on more levels than it needs, it does
the same, so the levels need not be counted any more.

* **`Coupling.later`** — runs that differ in their clocks only; **`Coupling.exact`** — in nothing.
* **`Coupling.Layered.eq_mapBelow`**, **`Coupling.Nodes.eq_of_told`** — nodes that go together and
  differ in nothing but what is below, or in nothing.
* **`Coupling.steps_machine`** — as many levels as a node has do what more levels do.
* **`Node.asMachine_eq`** — a node acts on the nodes below as on machines of its own sort.
* **`Coupling.Steps.asMachine`** — nodes keep up, if related nodes are alike at the top with related
  nodes below. -/

namespace Instinct

namespace Coupling

variable {G : Type} {m m' : Machine (Node G) G}

/-! ## Equal blackboards, all slots of which may be written -/

section Equal

variable {b b' : Blackboard}

/-- Equal blackboards are equal after the same slot was written. -/
theorem put_of_eq (h : b = b') (name : String) (v : Value) : b.put name v = b'.put name v := by
  rw [h]

/-- Equal blackboards are equal after the same slot was removed. -/
theorem removeName_of_eq (h : b = b') (name : String) : b.removeName name = b'.removeName name := by
  rw [h]

/-- Equal blackboards read the same at the keys of an agent's situation. -/
theorem handles_of_eq (h : b = b') : b'.get? Keys.enemy = b.get? Keys.enemy ∧
    b'.get? Keys.target = b.get? Keys.target ∧ b'.get? Keys.scene = b.get? Keys.scene := by
  rw [h]
  exact ⟨rfl, rfl, rfl⟩

/-- Where every slot may be written, so may those of the three handles. -/
theorem slots_of_all : True ∧ True ∧ True := ⟨trivial, trivial, trivial⟩

end Equal

/-! ## Runs that differ in their clocks only -/

/-- **The runs that differ in their clocks only**: the second is ahead by so many nanoseconds. -/
def later (delay : Nat) : Coupling G where
  delay := delay
  seeded := True
  slots _ := True
  boards b b' := b = b'
  stages s s' := s = s'
  tells _ := True
  flags b b' := b' = b
  game_eq h := by rw [h]
  mapGame h f := by rw [h]
  notify h _ _ := by rw [h]
  warn h _ _ hb root tick := by rw [h, hb]
  tells_message _ _ _ := trivial
  emit {w w'} hb hs e := by
    obtain ⟨b, s⟩ := w
    obtain ⟨b', s'⟩ := w'
    dsimp only at hb hs
    subst hb hs
    exact ⟨rfl, rfl⟩
  put h name _ v := put_of_eq h name v
  removeName h name _ := removeName_of_eq h name
  handles h := handles_of_eq h
  slots_handles := slots_of_all

/-- **The runs that differ in nothing.** -/
def exact : Coupling G := later 0

/-- Worlds on two sides that are only apart in time are equal. -/
theorem worlds_later_iff {delay : Nat} {w w' : World G} :
    (later delay).Worlds w w' ↔ w = w' := by
  constructor
  · rintro ⟨hboard, hstage⟩
    cases w
    cases w'
    cases hboard
    cases hstage
    rfl
  · rintro rfl
    exact ⟨rfl, rfl⟩

/-- The exact coupling has no delay and the same seeds. -/
theorem level_exact : (exact : Coupling G).Level := ⟨rfl, trivial⟩

/-! ## The second side told by the first -/

section Told

/-- **The second side is told by the first**: the clocks agree, the blackboards are the same, and
the flags are those of the first side under `flag`. -/
structure Told (K : Coupling G) (flag : Bool → Bool) : Prop where
  delay : K.delay = 0
  boards : ∀ {b b'}, K.boards b b' → b = b'
  flags : ∀ {b b'}, K.flags b b' → b' = flag b

variable {K : Coupling G} {flag : Bool → Bool} {f : Node G → Node G}

/-- Patterns that go together are told from one another by what is changed below. -/
theorem Patterns.eq_mapBelow (hK : K.Told flag) {p p' : Pattern (Node G) G}
    (h : K.Patterns (fun c c' => f c = c') p p') : p.mapBelow f flag = p' := by
  obtain ⟨hname, ⟨hroot, hboard, hlast, hticks, hwarns⟩, hpriority, hcooldown, hused,
    hcondition, -⟩ := h
  -- field by field: stamps without delay are equal, and so are blackboards and flags as told
  have hused := (stamps_iff hK.delay).mp hused
  have hboard := hK.boards hboard
  have hwarns := hK.flags hwarns
  obtain ⟨_, ⟨_, _, _, _, _⟩, _, _, _, _⟩ := p
  obtain ⟨_, ⟨_, _, _, _, _⟩, _, _, _, _⟩ := p'
  dsimp only at *
  subst hname hroot hboard hlast hticks hwarns hpriority hcooldown hused hcondition
  rfl

/-- Groups that go together are told from one another by what is changed below. -/
theorem Groups.eq_mapBelow (hK : K.Told flag) {e e' : String × List (Pattern (Node G) G)}
    (h : K.Groups (fun c c' => f c = c') e e') :
    (e.1, e.2.map (Pattern.mapBelow f flag)) = e' := by
  obtain ⟨hps⟩ := h
  have hps := hps.imp fun p p' hp => hp.eq_mapBelow hK
  rw [← List.forall₂_map_left_iff, List.forall₂_eq_eq_eq] at hps
  rw [hps]

/-- Leaves that go together are told from one another by what is changed below. -/
theorem Selections.eq_mapBelow (hK : K.Told flag) {s s' : Selection (Node G) G}
    (h : K.Selections (fun c c' => f c = c') s s') : s.mapBelow f flag = s' := by
  obtain @⟨archetype, ⟨⟨es⟩⟩, ⟨⟨es'⟩⟩, running, lastChoice, -, ⟨hes⟩⟩ := h
  have hes := hes.imp fun e e' he => he.eq_mapBelow hK
  rw [← List.forall₂_map_left_iff, List.forall₂_eq_eq_eq] at hes
  dsimp only at hes
  rw [← hes]
  rfl

/-- **A node that goes with another tells it**, if the nodes below do. -/
theorem Layered.eq_mapBelow (hK : K.Told flag) {n n' : Node G}
    (h : K.Layered (fun c c' => f c = c') n n') : n.mapBelow f flag = n' := by
  cases h with
  | composite _ hcs =>
    rw [← List.forall₂_map_left_iff, List.forall₂_eq_eq_eq] at hcs
    rw [Node.mapBelow, hcs]
  | decorator hd hc =>
    rw [Node.mapBelow, hd.eq_of_delay hK.delay]
    cases hc with
    | none => rfl
    | some hc => rw [Option.map_some, hc]
  | leaf hl => rw [Node.mapBelow, hl.eq_of_delay hK.delay]
  | patterns hs => rw [Node.mapBelow, hs.eq_mapBelow hK]
  | custom _ hcs =>
    rw [← List.forall₂_map_left_iff, List.forall₂_eq_eq_eq] at hcs
    rw [Node.mapBelow, hcs]

/-- Nodes that go together are the same, if the flags are too and those below are the same. -/
theorem Layered.eq_of_told (hK : K.Told id) {n n' : Node G} (h : K.Layered Eq n n') : n = n' :=
  n.mapBelow_id.symm.trans (Layered.eq_mapBelow (f := id) hK h)

/-- **Nodes that go together throughout are the same**, if the flags are too. -/
theorem Nodes.eq_of_told (hK : K.Told id) {n n' : Node G} (h : K.Nodes n n') : n = n' := by
  induction n using Node.beneath_induction generalizing n' with
  | step n ih =>
    have hbelow := ((nodes_iff n n').mp h).and fun c hc c' (hcc : K.Nodes c c') => ih c hc hcc
    exact Layered.eq_of_told hK (hbelow.imp fun c c' hc => hc.1 c' hc.2)

end Told

/-- Nodes alike in everything are the same. -/
theorem layered_exact_iff {n n' : Node G} : (exact : Coupling G).Layered Eq n n' ↔ n = n' := by
  constructor
  · exact Layered.eq_of_told ⟨rfl, fun h => h, fun h => h⟩
  · rintro rfl
    have hblind : (exact : Coupling G).Blind n :=
      blind_of_boards_eq level_exact (fun _ _ => Iff.rfl) (fun _ => trivial) fun _ _ _ _ => trivial
    exact layered_self (fun _ => rfl) (fun _ => rfl) (level_exact.oblivious hblind)
      fun _ _ => rfl

/-! ## Any number of levels -/

/-- **Enough levels are enough**: as many as the node has, or more, do the same. -/
theorem steps_machine {k j : Nat} (hkj : k ≤ j) :
    exact.Steps (Upto Eq k) (Node.machine k : Machine (Node G) G) (Node.machine j) := by
  induction k generalizing j with
  | zero => exact .upto_zero
  | succ k ih =>
    obtain ⟨j, rfl⟩ : ∃ i, j = i + 1 := ⟨j - 1, by omega⟩
    -- one level more on either side, over levels that keep up already
    refine (ih (Nat.le_of_succ_le_succ hkj)).layer.congr fun n n' => ?_
    rw [layered_upto, Upto, Upto, layered_exact_iff]

/-- Machines that keep up in exactly the same run do the same. -/
theorem Steps.tick_exact {k : Nat} (h : exact.Steps (Upto Eq k) m m') {n : Node G}
    (hn : n.levels ≤ k) (f : Frame) (w : World G) :
    m.tick f n w = m'.tick f n w ∧ (m.tick f n w).node.levels ≤ k := by
  have hf : (exact : Coupling G).Frames f f := level_exact.frames_iff.mpr rfl
  have hw : exact.Worlds w w := worlds_later_iff.mpr rfl
  -- equal status, equal node and equal world, so the outcomes are equal
  obtain ⟨hstatus, ⟨hlevels, hnode⟩, hworld⟩ := h.tick hf ⟨hn, rfl⟩ hw
  have hworld := worlds_later_iff.mp hworld
  refine ⟨?_, hlevels⟩
  calc m.tick f n w
      = ⟨(m.tick f n w).status, (m.tick f n w).node, (m.tick f n w).world⟩ := rfl
    _ = ⟨(m'.tick f n w).status, (m'.tick f n w).node, (m'.tick f n w).world⟩ := by
        rw [hstatus, hnode, hworld]
    _ = m'.tick f n w := rfl

end Coupling

namespace Node

variable {G : Type} {n : Node G} {k : Nat}

open Coupling

/-! ## Nodes as machines of any number of levels -/

/-- A machine with levels enough ticks a node as it is ticked with all of them. -/
theorem machine_tick (h : n.levels ≤ k) (f : Frame) (w : World G) :
    (machine k).tick f n w = n.tick f w :=
  ((steps_machine h).tick_exact (Nat.le_refl _) f w).1.symm

/-- A machine with levels enough resets a node as it is reset with all of them. -/
theorem machine_reset (h : n.levels ≤ k) : (machine k).reset n = n.reset :=
  ((steps_machine h).reset ⟨Nat.le_refl _, rfl⟩).2.symm

/-- A machine with levels enough does the same to the game in a reset. -/
theorem machine_onReset (h : n.levels ≤ k) : (machine k).onReset n = n.onReset :=
  (steps_machine h).onReset ⟨Nat.le_refl _, rfl⟩

/-- No tick makes a node deeper. -/
theorem levels_tick_le (h : n.levels ≤ k) (f : Frame) (w : World G) :
    (n.tick f w).node.levels ≤ k := by
  rw [← machine_tick h]
  exact ((steps_machine (Nat.le_refl k)).tick_exact h f w).2

/-- A reset does not make a tree any deeper. -/
theorem levels_reset_le (h : n.levels ≤ k) : n.reset.levels ≤ k := by
  rw [← machine_reset h]
  exact ((steps_machine (Nat.le_refl k)).reset ⟨h, Eq.refl n⟩).1

/-- Machines of so many levels do what machines of any number do, on nodes that have no more. -/
theorem steps_machine_asMachine (k : Nat) :
    exact.Steps (Upto Eq k) (machine k : Machine (Node G) G) asMachine where
  tick {f f' n n' w w'} hf hn hw := by
    obtain ⟨hlevels, rfl⟩ := hn
    obtain rfl := level_exact.frames_iff.mp hf
    rw [worlds_later_iff.mp hw, machine_tick hlevels]
    exact ⟨rfl, ⟨levels_tick_le hlevels f' w', rfl⟩, worlds_later_iff.mpr rfl⟩
  reset hn := by
    obtain ⟨hlevels, rfl⟩ := hn
    rw [machine_reset hlevels]
    exact ⟨levels_reset_le hlevels, rfl⟩
  onReset hn := by
    obtain ⟨hlevels, rfl⟩ := hn
    exact (machine_onReset hlevels).symm
  name {n n'} hn := by
    obtain ⟨-, rfl⟩ := hn
    cases k <;> rfl

/-- **A node acts on the nodes below as on machines of its own sort.** -/
theorem asMachine_eq : (asMachine : Machine (Node G) G) = layer asMachine := by
  -- any node has some number of levels, and that many do what one layer on top does
  have hsteps (n : Node G) : ∃ k, n.levels ≤ k ∧
      exact.Steps (Upto Eq k) (machine k : Machine (Node G) G) (layer asMachine) := by
    refine ⟨n.levels + 1, Nat.le_succ _, (steps_machine_asMachine _).layer.congr fun c c' => ?_⟩
    rw [layered_upto, Upto, Upto, layered_exact_iff]
  have htick : asMachine.tick = (layer asMachine : Machine (Node G) G).tick := by
    funext f n w
    obtain ⟨k, hk, h⟩ := hsteps n
    exact (machine_tick hk f w).symm.trans (h.tick_exact hk f w).1
  have hreset : asMachine.reset = (layer asMachine : Machine (Node G) G).reset := by
    funext n
    obtain ⟨k, hk, h⟩ := hsteps n
    exact (machine_reset hk).symm.trans (h.reset ⟨hk, rfl⟩).2
  have honReset : asMachine.onReset = (layer asMachine : Machine (Node G) G).onReset := by
    funext n
    obtain ⟨k, hk, h⟩ := hsteps n
    exact (machine_onReset hk).symm.trans (h.onReset ⟨hk, rfl⟩).symm
  calc asMachine
      = ⟨asMachine.tick, asMachine.reset, asMachine.onReset, name⟩ := rfl
    _ = ⟨(layer asMachine).tick, (layer asMachine).reset, (layer asMachine).onReset, name⟩ := by
        rw [htick, hreset, honReset]
    _ = layer asMachine := rfl

/-- A tick is the tick of one layer over the ticks below. -/
theorem tick_eq (f : Frame) (n : Node G) (w : World G) :
    n.tick f w = tickLayer asMachine f n w :=
  congrFun (congrFun (congrFun (congrArg Machine.tick asMachine_eq) f) n) w

/-- A reset is the reset of one layer over the resets below. -/
theorem reset_eq (n : Node G) : n.reset = resetLayer asMachine n :=
  congrFun (congrArg Machine.reset asMachine_eq) n

/-- What a reset does to the game is what the layer does over those below. -/
theorem onReset_eq (n : Node G) : n.onReset = onResetLayer asMachine n :=
  congrFun (congrArg Machine.onReset asMachine_eq) n

end Node

/-- **Nodes keep up**, if related nodes are alike at the top with related nodes below. -/
theorem Coupling.Steps.asMachine {G : Type} {K : Coupling G} {R : Node G → Node G → Prop}
    (hR : ∀ n n', R n n' ↔ K.Layered R n n') : K.Steps R Node.asMachine Node.asMachine := by
  -- related nodes are not given by recursion, so the induction is on the levels
  have hupto (k : Nat) : K.Steps (Upto R k) Node.asMachine Node.asMachine := by
    induction k with
    | zero => exact .upto_zero
    | succ k ih =>
      rw [Node.asMachine_eq]
      refine ih.layer.congr fun n n' => ?_
      rw [layered_upto, Upto, Upto, hR]
  exact {
    tick := fun {_ _ n _ _ _} hf hn hw => by
      have ho := (hupto n.levels).tick hf ⟨Nat.le_refl _, hn⟩ hw
      exact ⟨ho.status, ho.node.2, ho.world⟩
    reset := fun {n _} hn => ((hupto n.levels).reset ⟨Nat.le_refl _, hn⟩).2
    onReset := fun {n _} hn => (hupto n.levels).onReset ⟨Nat.le_refl _, hn⟩
    name := fun {n _} hn => (hupto n.levels).name ⟨Nat.le_refl _, hn⟩ }

/-- **Nodes alike throughout keep up.** -/
theorem Coupling.steps_nodes {G : Type} {K : Coupling G} :
    K.Steps K.Nodes Node.asMachine Node.asMachine :=
  Steps.asMachine nodes_iff

end Instinct
