import Instinct.Proofs.Drift
import Instinct.Proofs.Levels
import Instinct.Proofs.Turns

/-! # Nodes that leave the situation alone

What a mind writes on its blackboard stays there during a tick if the callbacks of the tree and its
edits of the blackboard keep their hands off. Trees of patterns have blackboards of their own; they
are told the target anew whenever they are ticked.

* **`Keys.situation`** — the names under which a mind writes; **`Blackboard.SameSituation`** —
  these slots hold the same.
* **`Node.Tactful`** — a node whose own doing leaves these slots alone.
* **`Machine.watch`**, **`Node.watched`** — machines that go astray as soon as anything is ticked
  on a blackboard that tells of another target.
* **`Drift.steps_watched`** — tactful nodes never do: wherever they are told of the target once, all
  that is ticked below is told of it too, and the situation stays. -/

namespace Instinct

/-- **The names under which a mind writes.** -/
def Keys.situation : List String :=
  [enemy.name, target.name, scene.name, healthRatio.name, isDead.name, position.name,
    targetPosition.name, targetDistance.name, deltaTime.name]

/-! ## Blackboards -/

namespace Blackboard

variable {b b' b'' : Blackboard}

/-- **The slots in which a mind writes hold the same.** -/
def SameSituation (b b' : Blackboard) : Prop :=
  ∀ name ∈ Keys.situation, b'.value? name = b.value? name

namespace SameSituation

/-- A blackboard has the same in them as itself. -/
theorem refl (b : Blackboard) : b.SameSituation b := fun _ _ => rfl

/-- One change after another. -/
theorem trans (h : b.SameSituation b') (h' : b'.SameSituation b'') : b.SameSituation b'' :=
  fun name hname => (h' name hname).trans (h name hname)

/-- What a key of such a slot finds is the same. -/
theorem get? {α : Type} [Slot α] (h : b.SameSituation b') {key : Key α}
    (hkey : key.name ∈ Keys.situation) : b'.get? key = b.get? key :=
  get?_of_value? (h key.name hkey)

/-- Writing another slot. -/
theorem put {name : String} (hname : name ∉ Keys.situation) (b : Blackboard) (v : Value) :
    b.SameSituation (b.put name v) := by
  intro other hother
  have hne : name ≠ other := fun he => hname (he ▸ hother)
  exact (b.value?_put name other v).trans (if_neg hne)

/-- Removing another slot. -/
theorem removeName {name : String} (hname : name ∉ Keys.situation) (b : Blackboard) :
    b.SameSituation (b.removeName name) := by
  intro other hother
  have hne : name ≠ other := fun he => hname (he ▸ hother)
  rw [value?_removeName, if_neg hne]

/-- The log of events is none of these slots. -/
theorem emit {G : Type} (w : World G) (e : TraceEvent) :
    w.board.SameSituation (w.emit e).board := by
  intro name hname
  have hne : Keys.traceLog.name ≠ name := fun he => absurd (he ▸ hname) (by decide)
  rw [World.emit, value?_modify, if_neg hne]

end SameSituation

end Blackboard

/-- The blackboard of a pattern that is about to be ticked tells of the target. -/
theorem Pattern.get?_target_briefedBoard {N G : Type} (p : Pattern N G) (s : Situation) :
    (p.briefedBoard s).get? Keys.target = s.target := by
  rw [briefedBoard, Blackboard.get?_setOrRemove_of_ne _ (by decide), Blackboard.get?_setOrRemove]

/-! ## Nodes -/

variable {N G : Type}

/-- A leaf that leaves the slots alone in which a mind writes. -/
def Leaf.Tactful : Leaf G → Prop
  | action deed => ∀ f (b : Blackboard) g, b.SameSituation (deed f b g).2.1
  | setValue key _ => key ∉ Keys.situation
  | clearValue key => key ∉ Keys.situation
  | _ => True

/-- **A tactful leaf** stays so and leaves these slots alone. -/
theorem Leaf.tactful_tick {l : Leaf G} (h : l.Tactful) (f : Frame) (w : World G) :
    (l.tick f w).node.Tactful ∧ w.board.SameSituation (l.tick f w).world.board := by
  cases l with
  | action deed => exact ⟨h, h f w.board w.game⟩
  | wait duration started =>
    cases started with
    | none => exact ⟨trivial, .refl _⟩
    | some started =>
      rw [tick]
      -- only an action and the writing of a slot can touch the blackboard
      split <;> exact ⟨trivial, .refl _⟩
  | setValue key source => cases source <;> exact ⟨h, .put h _ _⟩
  | clearValue key => exact ⟨h, .removeName h _⟩
  | condition test => exact ⟨trivial, .refl _⟩
  | fixed status => exact ⟨trivial, .refl _⟩
  | log message level => exact ⟨trivial, .refl _⟩

/-- **A node whose own doing leaves the slots alone** in which a mind writes. -/
def Node.Tactful : Node G → Prop
  | leaf _ l => l.Tactful
  | custom c _ => ∀ f (b : Blackboard) g, b.SameSituation (c.enter f b g).1
  | _ => True

/-- A repertoire whose patterns are tactful throughout. -/
def Repertoire.Tactful (r : Repertoire (Node G) G) : Prop :=
  ∀ c ∈ r.roots, c.Everywhere Node.Tactful

/-- **A machine that goes astray** as soon as it is ticked on a blackboard that tells of another
target: there it does something else. -/
def Machine.watch (target : Option TargetId) (astray : Frame → N → World G → Outcome N G)
    (m : Machine N G) : Machine N G :=
  { m with
    tick := fun f n w => if w.board.get? Keys.target = target then m.tick f n w else astray f n w }

namespace Node

variable (target : Option TargetId) (astray : Frame → Node G → World G → Outcome (Node G) G)

/-- Nodes as machines that go astray, as far as `levels` levels of nodes reach. -/
def watchedMachine : (levels : Nat) → Machine (Node G) G
  | 0 => (machine 0).watch target astray
  | levels + 1 => (layer (watchedMachine levels)).watch target astray

/-- **Nodes as machines that go astray** as soon as one of them, or one below, is ticked on a
blackboard that tells of another target. -/
def watched : Machine (Node G) G :=
  { asMachine with tick := fun f n w => (watchedMachine target astray n.levels).tick f n w }

end Node

/-! ## Ticks by tactful nodes -/

/-- **Tactful nodes**, on blackboards that tell of one target, which leave the situation alone. -/
def Drift.tactful (target : Option TargetId) : Drift (Node G) where
  nodes n := n.Everywhere Node.Tactful
  becomes _ _ := True
  boards b := b.get? Keys.target = target
  turns b b' := b.SameSituation b'
  becomes_refl _ := trivial
  becomes_trans _ _ := trivial
  turns_refl := .refl
  turns_trans := .trans
  boards_of_turns h hb := (h.get? (by decide)).trans hb

namespace Drift.Steps

variable {target : Option TargetId} {m m' : Machine (Node G) G}

/-- A tree that is ticked on a blackboard that tells of the target. -/
theorem tree (h : (tactful target).Steps m m') {t : Tree (Node G)}
    (ht : t.root.Everywhere Node.Tactful) (hboard : t.board.get? Keys.target = target) (f : Frame)
    (s : Stage G) :
    (t.tick m f s).2.1.root.Everywhere Node.Tactful ∧
      t.board.SameSituation (t.tick m f s).2.1.board ∧ t.tick m' f s = t.tick m f s := by
  have htick := h.tick f (w := { board := t.board, stage := s }) ht hboard
  have hsame := h.same f (w := { board := t.board, stage := s }) ht hboard
  -- the warning is written nowhere near the blackboard, and only the name of the root goes into it
  have hwarn (status : Status) (root : Node G) (w : World G) :
      (t.warnIfFailing m f status root w).board = w.board ∧
        t.warnIfFailing m' f status root w = t.warnIfFailing m f status root w := by
    unfold Tree.warnIfFailing
    rw [h.same_name]
    refine ⟨?_, rfl⟩
    split <;> rfl
  refine ⟨htick.nodes, ?_, ?_⟩
  · show t.board.SameSituation (t.warnIfFailing m f _ _ _).board
    rw [(hwarn _ _ _).1]
    exact htick.turns.trans (.emit _ _)
  · unfold Tree.tick
    rw [hsame]
    dsimp only
    rw [(hwarn _ _ _).2]

/-- A pattern that is ticked in a situation with the target. -/
theorem pattern (h : (tactful target).Steps m m') {p : Pattern (Node G) G}
    (hp : p.tree.root.Everywhere Node.Tactful) {s : Situation} (hs : s.target = target)
    (stage : Stage G) :
    (p.tick m s stage).2.1.tree.root.Everywhere Node.Tactful ∧
      p.tick m' s stage = p.tick m s stage := by
  have hboard := (p.get?_target_briefedBoard s).trans hs
  obtain ⟨hroot, -, hsame⟩ := h.tree (t := { p.tree with board := p.briefedBoard s }) hp hboard
    (s.frame.salted (nameSalt p.name)) stage
  refine ⟨hroot, ?_⟩
  unfold Pattern.tick
  dsimp only
  rw [hsame]

section Selection

variable {r : Repertoire (Node G) G} {s : Situation}

/-- A pattern that is found and ticked, whatever was noted of its start before. -/
theorem found (h : (tactful target).Steps m m') (hr : r.Tactful)
    (hs : s.target = target) {archetype name : String} {p q : Pattern (Node G) G}
    (hfind : r.find archetype name = .ok p) (hq : q.tree = p.tree) (stage : Stage G) :
    (r.modify archetype name fun _ => (q.tick m s stage).2.1).Tactful ∧
      q.tick m' s stage = q.tick m s stage := by
  have hroot : q.tree.root.Everywhere Node.Tactful := hq ▸ Repertoire.root_of_find hr hfind
  obtain ⟨hticked, hsame⟩ := h.pattern hroot hs stage
  exact ⟨Repertoire.roots_modify hr fun _ _ => hticked, hsame⟩

/-- Going on with a pattern keeps all roots tactful. -/
theorem resume (h : (tactful target).Steps m m') (hr : r.Tactful)
    (hs : s.target = target) (archetype name : String) (stage : Stage G) :
    (∀ o, r.resume m archetype name s stage = .ok o → o.2.1.Tactful) ∧
      r.resume m' archetype name s stage = r.resume m archetype name s stage := by
  unfold Repertoire.resume
  cases hfind : r.find archetype name with
  | error e => exact ⟨fun _ ho => (nomatch ho), rfl⟩
  | ok p =>
    obtain ⟨hroots, hsame⟩ := h.found hr hs hfind rfl stage
    dsimp only
    rw [hsame]
    -- the pattern that was ticked is put back among tactful ones
    refine ⟨fun o ho => ?_, rfl⟩
    obtain rfl := Except.ok.inj ho
    exact hroots

/-- So does starting one. -/
theorem execute (h : (tactful target).Steps m m') (hr : r.Tactful)
    (hs : s.target = target) (archetype name : String) (stage : Stage G) :
    (∀ o, r.execute m archetype name s stage = .ok o → o.2.1.Tactful) ∧
      r.execute m' archetype name s stage = r.execute m archetype name s stage := by
  unfold Repertoire.execute
  cases hfind : r.find archetype name with
  | error e => exact ⟨fun _ ho => (nomatch ho), rfl⟩
  | ok p =>
    obtain ⟨hroots, hsame⟩ := h.found (q := p.markUsed s.frame.now) hr hs hfind rfl stage
    dsimp only
    rw [hsame]
    refine ⟨fun o ho => ?_, rfl⟩
    obtain rfl := Except.ok.inj ho
    exact hroots

/-- Taking in what a tick of a pattern gave. -/
theorem settle {sel : Selection (Node G) G}
    {x : Except PatternError (Status × Repertoire (Node G) G × Stage G)}
    (hsel : sel.repertoire.Tactful) (hx : ∀ o, x = .ok o → o.2.1.Tactful) (f : Frame)
    (name : String) (w : World G) :
    (sel.settle f name w x).node.repertoire.Tactful ∧
      w.board.SameSituation (sel.settle f name w x).world.board := by
  cases x with
  | error e => exact ⟨hsel, .refl _⟩
  | ok o => exact ⟨hx o rfl, .emit { w with stage := o.2.2 } _⟩

/-- **A leaf that drives patterns** tells each that it ticks of the target. -/
theorem selection (h : (tactful target).Steps m m') {sel : Selection (Node G) G} {w : World G}
    (hsel : sel.repertoire.Tactful) (hw : w.board.get? Keys.target = target) (f : Frame) :
    (sel.tick m f w).node.repertoire.Tactful ∧
      w.board.SameSituation (sel.tick m f w).world.board ∧ sel.tick m' f w = sel.tick m f w := by
  have hs : (Situation.ofBoard f w.board).target = target := hw
  unfold Selection.tick
  cases hrunning : sel.running with
  | some name =>
    obtain ⟨hroots, hsame⟩ := h.resume hsel hs sel.archetype name w.stage
    dsimp only
    rw [hsame]
    obtain ⟨hnode, hboard⟩ := settle hsel hroots f name w
    exact ⟨hnode, hboard, rfl⟩
  | none =>
    dsimp only
    generalize sel.repertoire.select sel.archetype (Situation.ofBoard f w.board) w.game = chosen
    obtain ⟨best, game⟩ := chosen
    cases best with
    | none => exact ⟨hsel, .emit (w.mapGame fun _ => game) _, rfl⟩
    | some p =>
      -- the start is recorded before the pattern is ticked
      let w₁ := (w.mapGame fun _ => game).emit (Selection.selectEvent f (some p.name))
      let sel₁ : Selection (Node G) G := { sel with lastChoice := some p.name }
      obtain ⟨hroots, hsame⟩ := h.execute hsel hs sel.archetype p.name w₁.stage
      dsimp only
      rw [hsame]
      have hsel₁ : sel₁.repertoire.Tactful := hsel
      obtain ⟨hnode, hboard⟩ := settle hsel₁ hroots f p.name w₁
      exact ⟨hnode, (Blackboard.SameSituation.emit _ _).trans hboard, rfl⟩

/-- A reset of the leaf leaves its patterns tactful. -/
theorem resetSelection (h : (tactful target).Steps m m') {sel : Selection (Node G) G}
    (hsel : sel.repertoire.Tactful) : (sel.reset m).repertoire.Tactful := by
  unfold Selection.reset
  split
  · exact Repertoire.roots_modify hsel fun p hp => (h.reset hp).1
  · exact hsel

end Selection

/-- **A tick of a tactful node**, if the nodes below are tactful machines. -/
theorem tickLayer (h : (tactful target).Steps m m') {n : Node G} (hn : n.Everywhere Node.Tactful)
    {w : World G} (hw : w.board.get? Keys.target = target) (f : Frame) :
    (tactful target).Leads n w (Node.tickLayer m f n w).node (Node.tickLayer m f n w).world ∧
      Node.tickLayer m' f n w = Node.tickLayer m f n w := by
  unfold Node.tickLayer
  cases n with
  | composite title c cs =>
    obtain ⟨hleads, hsame⟩ := h.composite (f := f) c (Node.everywhere_composite.mp hn).2 hw
    dsimp only
    rw [hsame]
    exact ⟨⟨Node.everywhere_composite.mpr ⟨trivial, hleads.nodes⟩, trivial, hleads.turns⟩, rfl⟩
  | decorator title d child =>
    obtain ⟨hleads, hsame⟩ := h.decorator (f := f) d (Node.everywhere_decorator.mp hn).2 hw
    dsimp only
    rw [hsame]
    exact ⟨⟨Node.everywhere_decorator.mpr ⟨trivial, hleads.nodes⟩, trivial, hleads.turns⟩, rfl⟩
  | leaf title l =>
    obtain ⟨hnode, hboard⟩ := Leaf.tactful_tick (Node.everywhere_leaf.mp hn) f w
    exact ⟨⟨Node.everywhere_leaf.mpr hnode, trivial, hboard⟩, rfl⟩
  | patterns title sel =>
    obtain ⟨hnode, hboard, hsame⟩ := h.selection (Node.everywhere_patterns.mp hn).2 hw f
    dsimp only
    rw [hsame]
    exact ⟨⟨Node.everywhere_patterns.mpr ⟨trivial, hnode⟩, trivial, hboard⟩, rfl⟩
  | custom c cs =>
    obtain ⟨hc, hcs⟩ := Node.everywhere_custom.mp hn
    let w₁ : World G := { board := (c.enter f w.board w.game).1,
                          stage := w.stage.mapGame fun _ => (c.enter f w.board w.game).2 }
    have henter : w.board.SameSituation w₁.board := hc f w.board w.game
    -- the children see the same target, as entering leaves the slots alone
    have hw₁ : w₁.board.get? Keys.target = target := (henter.get? (by decide)).trans hw
    obtain ⟨hleads, hsame⟩ := h.tickAll (f := f) (w := w₁) hcs hw₁
    dsimp only
    unfold Custom.tick
    dsimp only
    rw [hsame]
    exact ⟨⟨Node.everywhere_custom.mpr ⟨hc, hleads.nodes⟩, trivial, henter.trans hleads.turns⟩, rfl⟩

/-- On a blackboard that tells of the target no machine goes astray. -/
theorem watch (h : (tactful target).Steps m m')
    (astray : Frame → Node G → World G → Outcome (Node G) G) :
    (tactful target).Steps m (m'.watch target astray) where
  tick := h.tick
  same f _ _ hn hw := (if_pos hw).trans (h.same f hn hw)
  reset := h.reset
  same_reset := h.same_reset
  same_onReset := h.same_onReset
  same_name := h.same_name

end Drift.Steps

end Instinct
