import Instinct.Node
import Mathlib.Data.List.Forall2

/-! # What ticks lead to

A tick changes nodes and blackboards, but only so far. How far is said of a single machine and shown
of all loops over children. Beside it goes a second machine that does the same wherever the first
one gets to, and may do anything elsewhere.

* **`Drift N`** — what nodes and blackboards may become.
* **`Drift.Leads`** — a node on a blackboard has become no more than it may.
* **`Drift.Steps D m m'`** — so do ticks and resets by `m`, and those by `m'` are the same.
* **`Drift.Steps.walk`**, **`tickAll`**, **`tickAt`**, **`repeatChild`**, **`retryChild`** — the
  loops over children.
* **`Drift.Steps.composite`**, **`Drift.Steps.decorator`** — the children of composites and
  decorators. -/

namespace Instinct

/-- **What nodes and blackboards may become.** -/
structure Drift (N : Type) where
  /-- The nodes that it is about. -/
  nodes : N → Prop
  /-- What a node may become. -/
  becomes : N → N → Prop
  /-- The blackboards that it is about. -/
  boards : Blackboard → Prop
  /-- What a blackboard may become. -/
  turns : Blackboard → Blackboard → Prop
  becomes_refl : ∀ n, becomes n n
  becomes_trans : ∀ {n n' n''}, becomes n n' → becomes n' n'' → becomes n n''
  turns_refl : ∀ b, turns b b
  turns_trans : ∀ {b b' b''}, turns b b' → turns b' b'' → turns b b''
  boards_of_turns : ∀ {b b'}, turns b b' → boards b → boards b'

namespace Drift

variable {N G : Type} {D : Drift N}

/-- What lists of nodes may become: each node by itself. -/
def list (D : Drift N) : Drift (List N) where
  nodes ns := ∀ n ∈ ns, D.nodes n
  becomes := List.Forall₂ D.becomes
  boards := D.boards
  turns := D.turns
  becomes_refl ns := List.forall₂_same.mpr fun n _ => D.becomes_refl n
  becomes_trans {ns ns' ns''} h h' := by
    induction h generalizing ns'' with
    | nil =>
      cases h'
      exact .nil
    | cons hn _ ih =>
      cases h' with
      | cons hn' hns' => exact .cons (D.becomes_trans hn hn') (ih hns')
  turns_refl := D.turns_refl
  turns_trans := D.turns_trans
  boards_of_turns := D.boards_of_turns

/-- What nodes that may be there may become. -/
def option (D : Drift N) : Drift (Option N) where
  nodes c := ∀ n ∈ c, D.nodes n
  becomes := Option.Rel D.becomes
  boards := D.boards
  turns := D.turns
  becomes_refl c := by
    cases c with
    | none => exact .none
    | some n => exact .some (D.becomes_refl n)
  becomes_trans h h' := by
    cases h with
    | none =>
      cases h'
      exact .none
    | some hn =>
      cases h' with
      | some hn' => exact .some (D.becomes_trans hn hn')
  turns_refl := D.turns_refl
  turns_trans := D.turns_trans
  boards_of_turns := D.boards_of_turns

/-- **A node on a blackboard has become no more than it may.** -/
structure Leads (D : Drift N) (n : N) (w : World G) (n' : N) (w' : World G) : Prop where
  nodes : D.nodes n'
  becomes : D.becomes n n'
  turns : D.turns w.board w'.board

namespace Leads

variable {n n' n'' : N} {w w' w'' : World G}

/-- Nothing has happened yet. -/
theorem refl (hn : D.nodes n) (w : World G) : D.Leads n w n w :=
  ⟨hn, D.becomes_refl n, D.turns_refl w.board⟩

/-- One thing after another. -/
theorem trans (h : D.Leads n w n' w') (h' : D.Leads n' w' n'' w'') : D.Leads n w n'' w'' :=
  ⟨h'.nodes, D.becomes_trans h.becomes h'.becomes, D.turns_trans h.turns h'.turns⟩

/-- The blackboard is still one that it is about. -/
theorem boards (h : D.Leads n w n' w') (hw : D.boards w.board) : D.boards w'.board :=
  D.boards_of_turns h.turns hw

/-- The first of a list, then the others. -/
theorem cons {ns ns' : List N} (h : D.Leads n w n' w') (hs : D.list.Leads ns w' ns' w'') :
    D.list.Leads (n :: ns) w (n' :: ns') w'' :=
  ⟨List.forall_mem_cons.mpr ⟨h.nodes, hs.nodes⟩, .cons h.becomes hs.becomes,
    D.turns_trans h.turns hs.turns⟩

/-- A list behind others that stay as they are. -/
theorem append {ks ns ns' : List N} (hks : D.list.nodes ks) (h : D.list.Leads ns w ns' w') :
    D.list.Leads (ks ++ ns) w (ks ++ ns') w' := by
  refine ⟨List.forall_mem_append.mpr ⟨hks, h.nodes⟩, ?_, h.turns⟩
  exact List.rel_append (D.list.becomes_refl ks) h.becomes

/-- The child that a decorator has. -/
theorem some (h : D.Leads n w n' w') : D.option.Leads (some n) w (some n') w' :=
  ⟨fun _ hc => Option.mem_some_iff.mp hc ▸ h.nodes, .some h.becomes, h.turns⟩

end Leads

/-- **A tick or a reset by `m` leads to no more than it may**, and `m'` does the same. -/
structure Steps (D : Drift N) (m m' : Machine N G) : Prop where
  tick : ∀ f {n w}, D.nodes n → D.boards w.board →
    D.Leads n w (m.tick f n w).node (m.tick f n w).world
  same : ∀ f {n w}, D.nodes n → D.boards w.board → m'.tick f n w = m.tick f n w
  reset : ∀ {n}, D.nodes n → D.nodes (m.reset n) ∧ D.becomes n (m.reset n)
  same_reset : m'.reset = m.reset
  same_onReset : m'.onReset = m.onReset
  same_name : m'.name = m.name

namespace Steps

variable {m m' : Machine N G} {f : Frame} {n c : N} {cs : List N} {w : World G}

/-! ## Resets -/

/-- Resetting a machine in the world is the same for both. -/
theorem same_resetIn (h : D.Steps m m') : m'.resetIn = m.resetIn := by
  funext n w
  rw [Machine.resetIn, Machine.resetIn, h.same_reset, h.same_onReset]

/-- What the game is told when children are reset is the same for both. -/
theorem same_onResetAll (h : D.Steps m m') : m'.onResetAll = m.onResetAll := by
  funext ns g
  rw [Machine.onResetAll, Machine.onResetAll, h.same_onReset]

/-- A reset of one machine in the world leads to no more than it may. -/
theorem resetIn (h : D.Steps m m') (hn : D.nodes n) (w : World G) :
    D.Leads n w (m.resetIn n w).1 (m.resetIn n w).2 :=
  ⟨(h.reset hn).1, (h.reset hn).2, D.turns_refl w.board⟩

/-- Resetting all children leads to no more than it may. -/
theorem resetAll (h : D.Steps m m') (hcs : D.list.nodes cs) :
    D.list.nodes (cs.map m.reset) ∧ D.list.becomes cs (cs.map m.reset) := by
  refine ⟨List.forall_mem_map.mpr fun c hc => (h.reset (hcs c hc)).1, ?_⟩
  exact List.forall₂_map_right_iff.mpr (List.forall₂_same.mpr fun c hc => (h.reset (hcs c hc)).2)

/-- So does resetting the child that a decorator has. -/
theorem resetOption (h : D.Steps m m') {child : Option N} (hchild : D.option.nodes child) :
    D.option.nodes (child.map m.reset) ∧ D.option.becomes child (child.map m.reset) := by
  cases child with
  | none => exact ⟨hchild, .none⟩
  | some c =>
    obtain ⟨hc, hbecomes⟩ := h.reset (hchild c rfl)
    exact ⟨fun _ hd => Option.mem_some_iff.mp hd ▸ hc, .some hbecomes⟩

/-! ## The loops over children -/

/-- **A walk over children** leads to no more than it may, and is the same for both machines. -/
theorem walk (h : D.Steps m m') (goOn : Status) (hcs : D.list.nodes cs) (hw : D.boards w.board) :
    D.list.Leads cs w (Instinct.walk m goOn f cs w).children (Instinct.walk m goOn f cs w).world ∧
      Instinct.walk m' goOn f cs w = Instinct.walk m goOn f cs w := by
  induction cs generalizing w with
  | nil => exact ⟨.refl hcs w, rfl⟩
  | cons c cs ih =>
    obtain ⟨hc, hcs⟩ := List.forall_mem_cons.mp hcs
    -- the later children are ticked in the world that the first one leaves
    have hfirst := h.tick f hc hw
    obtain ⟨hrest, hsame⟩ := ih hcs (hfirst.boards hw)
    rw [Instinct.walk, Instinct.walk, h.same f hc hw]
    -- what the first child reports decides whether there are later ones
    dsimp only
    by_cases hstatus : (m.tick f c w).status = goOn
    · rw [if_pos hstatus, if_pos hstatus, hsame]
      exact ⟨hfirst.cons hrest, rfl⟩
    · rw [if_neg hstatus, if_neg hstatus]
      exact ⟨hfirst.cons (.refl hcs _), rfl⟩

/-- **Ticking all children** leads to no more than it may, and is the same for both machines. -/
theorem tickAll (h : D.Steps m m') (hcs : D.list.nodes cs) (hw : D.boards w.board) :
    D.list.Leads cs w (m.tickAll f cs w).2.1 (m.tickAll f cs w).2.2 ∧
      m'.tickAll f cs w = m.tickAll f cs w := by
  induction cs generalizing w with
  | nil => exact ⟨.refl hcs w, rfl⟩
  | cons c cs ih =>
    obtain ⟨hc, hcs⟩ := List.forall_mem_cons.mp hcs
    have hfirst := h.tick f hc hw
    obtain ⟨hrest, hsame⟩ := ih hcs (hfirst.boards hw)
    rw [Machine.tickAll, Machine.tickAll, h.same f hc hw]
    dsimp only
    rw [hsame]
    exact ⟨hfirst.cons hrest, rfl⟩

/-- **Ticking the child at one place** leads to no more than it may, and is the same for both. -/
theorem tickAt (h : D.Steps m m') (i : Nat) (hcs : D.list.nodes cs) (hw : D.boards w.board) :
    D.list.Leads cs w (m.tickAt f i cs w).node (m.tickAt f i cs w).world ∧
      m'.tickAt f i cs w = m.tickAt f i cs w := by
  induction cs generalizing i with
  | nil =>
    rw [Machine.tickAt_nil, Machine.tickAt_nil]
    exact ⟨.refl hcs w, rfl⟩
  | cons c cs ih =>
    obtain ⟨hc, hcs⟩ := List.forall_mem_cons.mp hcs
    cases i with
    | zero =>
      rw [Machine.tickAt, Machine.tickAt, h.same f hc hw]
      exact ⟨(h.tick f hc hw).cons (.refl hcs _), rfl⟩
    | succ i =>
      obtain ⟨hrest, hsame⟩ := ih i hcs
      rw [Machine.tickAt, Machine.tickAt, hsame]
      -- the children in front of the place stay as they are
      exact ⟨(Leads.refl hc w).cons hrest, rfl⟩

/-- A child that is run several times, a reset after each. -/
theorem repeatChild (h : D.Steps m m') (left completed : Nat) (hc : D.nodes c)
    (hw : D.boards w.board) :
    D.Leads c w (Decorator.repeatChild m f left completed c w).2.2.1
        (Decorator.repeatChild m f left completed c w).2.2.2 ∧
      Decorator.repeatChild m' f left completed c w
        = Decorator.repeatChild m f left completed c w := by
  induction left generalizing completed c w with
  | zero => exact ⟨.refl hc w, rfl⟩
  | succ left ih =>
    have htick := h.tick f hc hw
    -- the child is reset between one round and the next
    have hreset := htick.trans (h.resetIn htick.nodes (m.tick f c w).world)
    obtain ⟨hrest, hsame⟩ := ih (completed + 1) hreset.nodes (hreset.boards hw)
    rw [Decorator.repeatChild, Decorator.repeatChild, h.same f hc hw, h.same_resetIn]
    dsimp only
    by_cases hrunning : (m.tick f c w).status.isRunning = true
    · rw [if_pos hrunning, if_pos hrunning]
      exact ⟨htick, rfl⟩
    · rw [if_neg hrunning, if_neg hrunning, hsame]
      exact ⟨hreset.trans hrest, rfl⟩

/-- A failing child that is run again, a reset after each attempt that is done. -/
theorem retryChild (h : D.Steps m m') (left failed : Nat) (hc : D.nodes c)
    (hw : D.boards w.board) :
    D.Leads c w (Decorator.retryChild m f left failed c w).2.2.1
        (Decorator.retryChild m f left failed c w).2.2.2 ∧
      Decorator.retryChild m' f left failed c w = Decorator.retryChild m f left failed c w := by
  induction left generalizing failed c w with
  | zero => exact ⟨.refl hc w, rfl⟩
  | succ left ih =>
    have htick := h.tick f hc hw
    -- a child that has concluded is reset, whichever way it went
    have hreset := htick.trans (h.resetIn htick.nodes (m.tick f c w).world)
    obtain ⟨hrest, hsame⟩ := ih (failed + 1) hreset.nodes (hreset.boards hw)
    rw [Decorator.retryChild, Decorator.retryChild, h.same f hc hw, h.same_resetIn]
    dsimp only
    cases (m.tick f c w).status with
    | running => exact ⟨htick, rfl⟩
    | success => exact ⟨hreset, rfl⟩
    | failure =>
      dsimp only
      rw [hsame]
      exact ⟨hreset.trans hrest, rfl⟩

/-! ## Composites -/

/-- Concluding leads no further than resetting the children does. -/
theorem conclude (h : D.Steps m m') (c : Composite) {cs₀ : List N} {w₀ : World G}
    (hcs : D.list.Leads cs₀ w₀ cs w) (status : Status) :
    D.list.Leads cs₀ w₀ (c.conclude m cs status w).node.2 (c.conclude m cs status w).world ∧
      c.conclude m' cs status w = c.conclude m cs status w := by
  obtain ⟨hnodes, hbecomes⟩ := h.resetAll hcs.nodes
  have hreset : D.list.Leads cs w (cs.map m.reset) (w.mapGame (m.onResetAll cs)) :=
    ⟨hnodes, hbecomes, D.turns_refl w.board⟩
  refine ⟨hcs.trans hreset, ?_⟩
  rw [Composite.conclude, Composite.conclude, h.same_reset, h.same_onResetAll]

/-- A sequence or a selector walks over the children from its cursor on. -/
theorem tickInOrder (h : D.Steps m m') (make : Nat → Composite) (goOn : Status) (cursor : Nat)
    (hcs : D.list.nodes cs) (hw : D.boards w.board) :
    D.list.Leads cs w (Composite.tickInOrder m make goOn f cursor cs w).node.2
        (Composite.tickInOrder m make goOn f cursor cs w).world ∧
      Composite.tickInOrder m' make goOn f cursor cs w
        = Composite.tickInOrder m make goOn f cursor cs w := by
  obtain ⟨hdrop, hsame⟩ := h.walk (f := f) goOn
    (fun c hc => hcs c (List.mem_of_mem_drop hc) : D.list.nodes (cs.drop cursor)) hw
  -- the children in front of the cursor are not ticked
  have hall := hdrop.append (fun c hc => hcs c (List.mem_of_mem_take hc) :
    D.list.nodes (cs.take cursor))
  rw [List.take_append_drop] at hall
  unfold Composite.tickInOrder
  dsimp only
  rw [hsame]
  -- a running composite keeps its children, any other one resets them
  split
  · exact ⟨hall, rfl⟩
  · exact h.conclude _ hall _

/-- A parallel ticks all its children. -/
theorem tickParallel (h : D.Steps m m') (policy : Policy) (hcs : D.list.nodes cs)
    (hw : D.boards w.board) :
    D.list.Leads cs w (Composite.tickParallel m policy f cs w).node.2
        (Composite.tickParallel m policy f cs w).world ∧
      Composite.tickParallel m' policy f cs w = Composite.tickParallel m policy f cs w := by
  obtain ⟨hall, hsame⟩ := h.tickAll (f := f) hcs hw
  unfold Composite.tickParallel
  rw [hsame]
  dsimp only
  -- a running composite keeps its children, any other one resets them
  split
  · exact ⟨hall, rfl⟩
  · exact h.conclude _ hall _

/-- A composite that draws ticks the child it has chosen, if it has children at all. -/
theorem tickChosen (h : D.Steps m m') (make : Draws → Composite) (pick : Generator → Nat)
    (d : Draws) (hcs : D.list.nodes cs) (hw : D.boards w.board) :
    D.list.Leads cs w (Composite.tickChosen m make pick f d cs w).node.2
        (Composite.tickChosen m make pick f d cs w).world ∧
      Composite.tickChosen m' make pick f d cs w = Composite.tickChosen m make pick f d cs w := by
  unfold Composite.tickChosen
  by_cases hempty : cs.isEmpty = true
  · rw [if_pos hempty, if_pos hempty]
    exact ⟨.refl hcs w, rfl⟩
  · rw [if_neg hempty, if_neg hempty]
    dsimp only
    rw [(h.tickAt _ hcs hw).2]
    exact ⟨(h.tickAt _ hcs hw).1, rfl⟩

/-- **The children of a composite** that is ticked. -/
theorem composite (h : D.Steps m m') (c : Composite) (hcs : D.list.nodes cs)
    (hw : D.boards w.board) :
    D.list.Leads cs w (c.tick m f cs w).node.2 (c.tick m f cs w).world ∧
      c.tick m' f cs w = c.tick m f cs w := by
  cases c with
  | sequence cursor => exact h.tickInOrder .sequence .success cursor hcs hw
  | selector cursor => exact h.tickInOrder .selector .failure cursor hcs hw
  | parallel policy => exact h.tickParallel policy hcs hw
  | random d => exact h.tickChosen .random (pickUniform cs.length) d hcs hw
  | weighted ws d => exact h.tickChosen (.weighted ws) (pickChild ws cs.length) d hcs hw

/-! ## Decorators -/

theorem tickAround (h : D.Steps m m') (d : Decorator G) (hc : D.nodes c) (hw : D.boards w.board) :
    D.Leads c w (d.tickAround m f c w).node.2 (d.tickAround m f c w).world ∧
      d.tickAround m' f c w = d.tickAround m f c w := by
  have htick := h.tick f hc hw
  have hsame := h.same f hc hw
  unfold Decorator.tickAround
  rw [h.same_resetIn]
  cases d with
  | inverter =>
    dsimp only
    rw [hsame]
    exact ⟨htick, rfl⟩
  | succeeder =>
    dsimp only
    rw [hsame]
    exact ⟨htick, rfl⟩
  | failer =>
    dsimp only
    rw [hsame]
    exact ⟨htick, rfl⟩
  | repeater times completed =>
    cases times with
    | none =>
      dsimp only
      rw [hsame]
      split
      · exact ⟨htick, rfl⟩
      · exact ⟨htick.trans (h.resetIn htick.nodes _), rfl⟩
    | some times =>
      obtain ⟨hloop, hloops⟩ := h.repeatChild (f := f) (times - completed) completed hc hw
      dsimp only
      rw [hloops]
      exact ⟨hloop, rfl⟩
  | retry attempts failed =>
    obtain ⟨hloop, hloops⟩ := h.retryChild (f := f) (attempts - failed) failed hc hw
    dsimp only
    rw [hloops]
    exact ⟨hloop, rfl⟩
  | timeout limit started =>
    dsimp only
    rw [hsame]
    split
    · exact ⟨h.resetIn hc w, rfl⟩
    · exact ⟨htick, rfl⟩
  | cooldown duration finished =>
    dsimp only
    rw [hsame]
    split
    · exact ⟨.refl hc w, rfl⟩
    · exact ⟨htick, rfl⟩
  | conditional guard =>
    -- the test touches the game only, so the child is ticked on the same blackboard
    let w₁ := w.mapGame fun _ => (guard f w.board w.game).2
    have hguard : D.Leads c w c w₁ := ⟨hc, D.becomes_refl c, D.turns_refl w.board⟩
    have hsame₁ : m'.tick f c w₁ = m.tick f c w₁ := h.same f hc (hguard.boards hw)
    dsimp only
    rw [hsame₁]
    split
    · exact ⟨hguard.trans (h.tick f hc (hguard.boards hw)), rfl⟩
    · exact ⟨hguard.trans (h.resetIn hc w₁), rfl⟩

/-- **The child of a decorator** that is ticked. -/
theorem decorator (h : D.Steps m m') (d : Decorator G) {child : Option N}
    (hchild : D.option.nodes child) (hw : D.boards w.board) :
    D.option.Leads child w (d.tick m f child w).node.2 (d.tick m f child w).world ∧
      d.tick m' f child w = d.tick m f child w := by
  cases child with
  | none => exact ⟨.refl hchild w, rfl⟩
  | some c =>
    obtain ⟨hc, hsame⟩ := h.tickAround (f := f) d (hchild c rfl) hw
    rw [Decorator.tick, Decorator.tick, hsame]
    exact ⟨hc.some, rfl⟩

/-! ## Nodes -/

/-- Nodes of no level do nothing at all. -/
theorem machine_zero (D : Drift (Node G)) :
    D.Steps (Node.machine 0 : Machine (Node G) G) (Node.machine 0) where
  tick _ _ w hn _ := .refl hn w
  same _ _ _ _ _ := rfl
  reset {n} hn := ⟨hn, D.becomes_refl n⟩
  same_reset := rfl
  same_onReset := rfl
  same_name := rfl

/-- What nodes do as machines they do on as many levels as they have. -/
theorem ofLevels {D : Drift (Node G)} {m' : Nat → Machine (Node G) G}
    (h : ∀ k, D.Steps (Node.machine k) (m' k)) :
    D.Steps Node.asMachine
      { Node.asMachine with tick := fun f n w => (m' n.levels).tick f n w } where
  tick f n _ hn hw := (h n.levels).tick f hn hw
  same f n _ hn hw := (h n.levels).same f hn hw
  reset {n} hn := (h n.levels).reset hn
  same_reset := rfl
  same_onReset := rfl
  same_name := rfl

/-- **Nodes become no more than they may**, if one layer does so over others that do. -/
theorem asMachine {D : Drift (Node G)}
    (hlayer : ∀ m : Machine (Node G) G, D.Steps m m → D.Steps (Node.layer m) (Node.layer m)) :
    D.Steps (Node.asMachine : Machine (Node G) G) Node.asMachine := by
  have hmachine (k : Nat) : D.Steps (Node.machine k : Machine (Node G) G) (Node.machine k) := by
    induction k with
    | zero => exact machine_zero D
    | succ k ih => exact hlayer _ ih
  exact ofLevels hmachine

end Steps

end Drift

end Instinct
