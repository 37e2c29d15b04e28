import Instinct.Proofs.AsBuilt
import Instinct.Proofs.Selection.Traced

/-! # How often one tick executes patterns

Every execution of a pattern is recorded in the log of the tree whose leaf drives it. The trees of
the patterns have logs of their own, so how many executions one tick of a tree records can be read
off the nodes that stand outside of patterns.

* **`Node.drives`** — the number of leaves that drive patterns, those below a loop counted once for
  each round.
* **`Node.Civil I`** — a node whose own doing leaves the log alone and keeps what holds of the game.
* **`Grows I k`** — from one moment to another `I` is kept, and the log grows by `k` executions at
  most and by no end of a tick.
* **`Modest.composite`**, **`Modest.decorator`**, **`Modest.selection`**, **`Modest.layer`** — what
  one tick of a machine over civil machines comes to.
* **`Node.modest`** — a tick of a civil node executes patterns no more often than it drives them.
* **`Tree.grows_tick`** — and a tick of its tree records its own end once. -/

namespace Instinct

variable {N G : Type}

/-! ## (1) How many patterns a node drives -/

/-- How often at most one tick of a decorator ticks its child. -/
def Decorator.rounds : Decorator G → Nat
  | repeater (some times) _ => times
  | retry attempts _ => attempts
  | _ => 1

/-- How far a repeater has come says nothing about how far it may go. -/
theorem Decorator.rounds_asBuilt (d : Decorator G) : d.asBuilt.rounds = d.rounds := by
  cases d with
  | repeater times completed => cases times <;> rfl
  | _ => rfl

namespace Node

mutual

/-- **How many patterns a node drives**: one for each leaf that does, as often as one tick may get
there. What patterns drive themselves does not count. -/
def drives : Node G → Nat
  | composite _ _ children => drivesAll children
  | decorator _ d child => d.rounds * drivesOption child
  | leaf _ _ => 0
  | patterns _ _ => 1
  | custom _ children => drivesAll children

/-- How many patterns a list of nodes drives. -/
def drivesAll : List (Node G) → Nat
  | [] => 0
  | n :: ns => drives n + drivesAll ns

/-- How many patterns a node drives that may be there. -/
def drivesOption : Option (Node G) → Nat
  | none => 0
  | some n => drives n

end

/-- The later nodes of a list drive no more than all of them. -/
theorem drivesAll_drop_le (i : Nat) (ns : List (Node G)) :
    drivesAll (ns.drop i) ≤ drivesAll ns := by
  induction ns generalizing i with
  | nil => rw [List.drop_nil]
  | cons n ns ih =>
    cases i with
    | zero => exact Nat.le_refl _
    | succ i =>
      rw [List.drop_succ_cons, drivesAll]
      exact Nat.le_trans (ih i) (Nat.le_add_left _ _)

end Node

/-! ## (2) Civil nodes -/

variable (I : G → Prop)

/-- A value whose computation keeps what holds of the game. -/
def ValueSource.Civil : ValueSource G → Prop
  | constant _ => True
  | computed compute => ∀ f b g, I g → I (compute f b g).2

/-- A leaf that leaves the log alone and keeps what holds of the game. -/
def Leaf.Civil : Leaf G → Prop
  | action deed => ∀ f (b : Blackboard) g,
      (deed f b g).2.1.get? Keys.traceLog = b.get? Keys.traceLog ∧ (I g → I (deed f b g).2.2)
  | condition test => ∀ f b g, I g → I (test f b g).2
  | setValue key source => key ≠ Keys.traceLog.name ∧ source.Civil I
  | clearValue key => key ≠ Keys.traceLog.name
  | _ => True

/-- A decorator whose test keeps what holds of the game. -/
def Decorator.Civil : Decorator G → Prop
  | conditional guard => ∀ f b g, I g → I (guard f b g).2
  | _ => True

/-- A pattern whose condition keeps what holds of the game. -/
def Pattern.Civil (p : Pattern N G) : Prop :=
  ∀ condition ∈ p.condition, ∀ s g, I g → I (condition s g).2

/-- A node of the game's own making that leaves the log alone and keeps what holds of the game. -/
structure Custom.Civil (c : Custom G) : Prop where
  log : ∀ f (b : Blackboard) g, (c.enter f b g).1.get? Keys.traceLog = b.get? Keys.traceLog
  enter : ∀ f b g, I g → I (c.enter f b g).2
  conclude : ∀ statuses g, I g → I (c.conclude statuses g).2
  onReset : ∀ g, I g → I (c.onReset g)

/-- **A node whose own doing leaves the log alone** and keeps what holds of the game. -/
def Node.Civil : Node G → Prop
  | composite _ _ _ => True
  | decorator _ d _ => d.Civil I
  | leaf _ l => l.Civil I
  | patterns _ sel => sel.repertoire.All (Pattern.Civil I)
  | custom c _ => c.Civil I

variable {I}

/-- What a leaf keeps does not depend on how far it has come. -/
theorem Leaf.civil_asBuilt (l : Leaf G) : l.asBuilt.Civil I ↔ l.Civil I := by
  cases l <;> exact Iff.rfl

/-- Neither does what a decorator keeps. -/
theorem Decorator.civil_asBuilt (d : Decorator G) : d.asBuilt.Civil I ↔ d.Civil I := by
  cases d <;> exact Iff.rfl

/-- A pattern that is civil and has a tree that is civil throughout. -/
def Pattern.Orderly (I : G → Prop) (p : Pattern (Node G) G) : Prop :=
  p.Civil I ∧ p.tree.root.Everywhere (Node.Civil I)

/-- A leaf that drives patterns is civil throughout when all its patterns are orderly. -/
theorem Node.everywhere_civil_patterns {title : Option String} {sel : Selection (Node G) G} :
    (patterns title sel).Everywhere (Node.Civil I) ↔
      sel.repertoire.All (Pattern.Orderly I) := by
  rw [everywhere_patterns, Repertoire.forall_mem_roots]
  constructor
  · rintro ⟨hcivil, hroots⟩ e he p hp
    exact ⟨hcivil e he p hp, hroots e he p hp⟩
  · intro h
    exact ⟨fun e he p hp => (h e he p hp).1, fun e he p hp => (h e he p hp).2⟩

/-- **Civil nodes** stay so, and drive as many patterns as before. -/
def Drift.civil (I : G → Prop) : Drift (Node G) where
  nodes n := n.Everywhere (Node.Civil I)
  becomes n n' := n'.drives = n.drives
  boards _ := True
  turns _ _ := True
  becomes_refl _ := rfl
  becomes_trans h h' := h'.trans h
  turns_refl _ := trivial
  turns_trans _ _ := trivial
  boards_of_turns _ _ := trivial

/-- Nodes that stay civil drive as much together as before. -/
theorem Drift.drivesAll_of_becomes {ns ns' : List (Node G)}
    (h : (civil I).list.becomes ns ns') : Node.drivesAll ns' = Node.drivesAll ns := by
  induction h with
  | nil => rfl
  | cons hn _ ih =>
    have hn : Node.drives _ = Node.drives _ := hn
    rw [Node.drivesAll, Node.drivesAll, hn, ih]

/-- The same of a child that may be missing. -/
theorem Drift.drivesOption_of_becomes {c c' : Option (Node G)}
    (h : (civil I).option.becomes c c') : Node.drivesOption c' = Node.drivesOption c := by
  cases h with
  | none => rfl
  | some hn => exact hn

/-! ## (3) How a log grows -/

/-- **From one moment to another** what holds of the game is kept, and the log grows by at most so
many executions of patterns and by no end of a tick. -/
structure Grows (I : G → Prop) (k : Nat) (w w' : World G) : Prop where
  keeps : I w.game → I w'.game
  appends : ∃ events, w.Appends w' events ∧ events.countP (·.tag = patternExecuteTag) ≤ k ∧
    ∀ e ∈ events, e.tag ≠ treeTickTag

namespace Grows

variable {k k' : Nat} {w w' w'' : World G}

/-- Nothing is recorded while the log is left alone. -/
theorem of_eq (hkeeps : I w.game → I w'.game)
    (hlog : w'.board.get? Keys.traceLog = w.board.get? Keys.traceLog) : Grows I 0 w w' where
  keeps := hkeeps
  appends := ⟨[], .of_eq hlog, Nat.le_refl 0, fun _ he => nomatch he⟩

/-- Nothing happens, and nothing is recorded. -/
theorem refl (w : World G) : Grows I 0 w w := .of_eq id rfl

/-- One thing after another: what they record adds up. -/
theorem trans (h : Grows I k w w') (h' : Grows I k' w' w'') : Grows I (k + k') w w'' where
  keeps hw := h'.keeps (h.keeps hw)
  appends := by
    obtain ⟨events, happends, hcount, htags⟩ := h.appends
    obtain ⟨events', happends', hcount', htags'⟩ := h'.appends
    refine ⟨events ++ events', happends.trans happends', ?_, ?_⟩
    · rw [List.countP_append]
      exact Nat.add_le_add hcount hcount'
    · exact List.forall_mem_append.mpr ⟨htags, htags'⟩

/-- What grows by little has not grown by more. -/
theorem mono (h : Grows I k w w') (hk : k ≤ k') : Grows I k' w w' where
  keeps := h.keeps
  appends := by
    obtain ⟨events, happends, hcount, htags⟩ := h.appends
    exact ⟨events, happends, Nat.le_trans hcount hk, htags⟩

/-- One more event that closes no tick. -/
theorem emit (h : Grows I k w w') {e : TraceEvent} (htag : e.tag ≠ treeTickTag) {j : Nat}
    (hj : [e].countP (·.tag = patternExecuteTag) ≤ j) : Grows I (k + j) w (w'.emit e) where
  keeps hw := by
    rw [World.game_emit]
    exact h.keeps hw
  appends := by
    obtain ⟨events, happends, hcount, htags⟩ := h.appends
    -- the event counts where it is an execution, and is added to those before it
    refine ⟨events ++ [e], happends.trans (.emit rfl e), ?_, ?_⟩
    · rw [List.countP_append]
      exact Nat.add_le_add hcount hj
    · exact List.forall_mem_append.mpr ⟨htags, List.forall_mem_singleton.mpr htag⟩

/-- The selection of a pattern is recorded. -/
theorem select (h : Grows I k w w') (f : Frame) (label : Option String) :
    Grows I k w (w'.emit (Selection.selectEvent f label)) := by
  have htag : (Selection.selectEvent f label).tag ≠ treeTickTag :=
    (by decide : patternSelectTag ≠ treeTickTag)
  exact h.emit htag (Nat.le_refl 0)

/-- An execution is recorded. -/
theorem execute (h : Grows I k w w') (f : Frame) (name : String) (status : Status) :
    Grows I (k + 1) w (w'.emit (Selection.executeEvent f name status)) := by
  have htag : (Selection.executeEvent f name status).tag ≠ treeTickTag :=
    (by decide : patternExecuteTag ≠ treeTickTag)
  exact h.emit htag (List.countP_le_length)

end Grows

/-- Telling about a root that fails touches neither the blackboard nor the game. -/
theorem Tree.board_warnIfFailing (m : Machine N G) (f : Frame) (t : Tree N) (status : Status)
    (root : N) (w : World G) : (t.warnIfFailing m f status root w).board = w.board := by
  unfold warnIfFailing
  split <;> rfl

/-- A warning about a failing root goes to the notices. -/
theorem Tree.game_warnIfFailing (m : Machine N G) (f : Frame) (t : Tree N) (status : Status)
    (root : N) (w : World G) : (t.warnIfFailing m f status root w).game = w.game := by
  unfold warnIfFailing
  split <;> rfl

/-- **A civil leaf** that is ticked. -/
theorem Leaf.Civil.grows {l : Leaf G} (hl : l.Civil I) (f : Frame) (w : World G) :
    Grows I 0 w (l.tick f w).world := by
  -- no leaf records anything; only deeds, tests and values can touch the game at all
  cases l with
  | action deed => exact .of_eq (hl f w.board w.game).2 (hl f w.board w.game).1
  | condition test => exact .of_eq (hl f w.board w.game) rfl
  | wait duration started =>
    cases started with
    | none => exact .refl w
    | some started =>
      rw [Leaf.tick]
      split <;> exact .refl w
  | fixed status => exact .refl w
  | log message level => exact .of_eq id rfl
  -- the names that are written and cleared are not the one the log goes by
  | setValue key source =>
    cases source with
    | constant value => exact .of_eq id (Blackboard.get?_put_of_ne hl.1 _)
    | computed compute => exact .of_eq (hl.2 f w.board w.game) (Blackboard.get?_put_of_ne hl.1 _)
  | clearValue key => exact .of_eq id (Blackboard.get?_removeName_of_ne hl)

/-! ## (4) Machines over civil machines -/

/-- **A machine under which civil nodes stay so** and execute patterns no more often than they drive
them. -/
structure Modest (I : G → Prop) (m : Machine (Node G) G) : Prop where
  steps : (Drift.civil I).Steps m m
  grows : ∀ f {n} (w : World G), n.Everywhere (Node.Civil I) →
    Grows I n.drives w (m.tick f n w).world
  onReset : ∀ {n} g, n.Everywhere (Node.Civil I) → I g → I (m.onReset n g)

namespace Modest

variable {m : Machine (Node G) G} {f : Frame} {n c : Node G} {cs : List (Node G)}

/-! ### Loops over children -/

section Loops

variable (h : Modest I m)

include h

/-- A tick of a civil node leaves it civil, and it drives as many patterns as before. -/
theorem civil_tick (hn : n.Everywhere (Node.Civil I)) (f : Frame) (w : World G) :
    (m.tick f n w).node.Everywhere (Node.Civil I) ∧ (m.tick f n w).node.drives = n.drives :=
  ⟨(h.steps.tick f hn trivial).nodes, (h.steps.tick f hn trivial).becomes⟩

/-- So does a reset, which records nothing. -/
theorem resetIn (hn : n.Everywhere (Node.Civil I)) (w : World G) :
    ((m.resetIn n w).1.Everywhere (Node.Civil I) ∧ (m.resetIn n w).1.drives = n.drives) ∧
      Grows I 0 w (m.resetIn n w).2 :=
  ⟨h.steps.reset hn, .of_eq (h.onReset w.game hn) rfl⟩

/-- What is told to the game when children are reset keeps what holds of it. -/
theorem onResetAll (hcs : ∀ c ∈ cs, c.Everywhere (Node.Civil I)) (g : G) (hg : I g) :
    I (m.onResetAll cs g) := by
  unfold Machine.onResetAll
  exact List.foldlRecOn cs _ hg fun g hg c hc => h.onReset g (hcs c hc) hg

/-- And when one that may be missing is reset. -/
theorem onResetOption {child : Option (Node G)}
    (hchild : ∀ c ∈ child, c.Everywhere (Node.Civil I)) (g : G) (hg : I g) :
    I (m.onResetOption child g) := by
  cases child with
  | none => exact hg
  | some c => exact h.onReset g (hchild c rfl) hg

/-- **A walk over children** records what they drive together at most. -/
theorem walk (goOn : Status) (hcs : ∀ c ∈ cs, c.Everywhere (Node.Civil I)) (w : World G) :
    Grows I (Node.drivesAll cs) w (Instinct.walk m goOn f cs w).world := by
  induction cs generalizing w with
  | nil => exact .refl w
  | cons c cs ih =>
    obtain ⟨hc, hcs⟩ := List.forall_mem_cons.mp hcs
    have hfirst := h.grows f w hc
    rw [Instinct.walk, Node.drivesAll]
    dsimp only
    -- the later children are ticked only as long as the walk goes on
    split
    · exact hfirst.trans (ih hcs _)
    · exact hfirst.mono (Nat.le_add_right _ _)

/-- Ticking all children records what they drive together at most. -/
theorem tickAll (hcs : ∀ c ∈ cs, c.Everywhere (Node.Civil I)) (w : World G) :
    Grows I (Node.drivesAll cs) w (m.tickAll f cs w).2.2 := by
  induction cs generalizing w with
  | nil => exact .refl w
  | cons c cs ih =>
    obtain ⟨hc, hcs⟩ := List.forall_mem_cons.mp hcs
    rw [Machine.tickAll, Node.drivesAll]
    exact (h.grows f w hc).trans (ih hcs _)

/-- Ticking the child at one place records what it drives at most, and so no more than all of them.
-/
theorem tickAt (i : Nat) (hcs : ∀ c ∈ cs, c.Everywhere (Node.Civil I)) (w : World G) :
    Grows I (Node.drivesAll cs) w (m.tickAt f i cs w).world := by
  induction cs generalizing i with
  | nil =>
    rw [Machine.tickAt_nil]
    exact .refl w
  | cons c cs ih =>
    obtain ⟨hc, hcs⟩ := List.forall_mem_cons.mp hcs
    rw [Node.drivesAll]
    cases i with
    | zero => exact (h.grows f w hc).mono (Nat.le_add_right _ _)
    | succ i => exact (ih i hcs).mono (Nat.le_add_left _ _)

/-- A whole round of a loop: a tick and a reset. -/
theorem round (hc : c.Everywhere (Node.Civil I)) (f : Frame) (w : World G) :
    let o := m.tick f c w
    let r := m.resetIn o.node o.world
    (r.1.Everywhere (Node.Civil I) ∧ r.1.drives = c.drives) ∧ Grows I c.drives w r.2 := by
  intro o r
  obtain ⟨hcivil, hdrives⟩ := h.civil_tick hc f w
  obtain ⟨⟨hcivil', hdrives'⟩, hreset⟩ := h.resetIn hcivil o.world
  exact ⟨⟨hcivil', hdrives'.trans hdrives⟩, (h.grows f w hc).trans hreset⟩

/-- **The rounds of a repeater** record what the child drives, once for each round. -/
theorem repeatChild (left completed : Nat) (hc : c.Everywhere (Node.Civil I)) (w : World G) :
    Grows I (left * c.drives) w (Decorator.repeatChild m f left completed c w).2.2.2 := by
  induction left generalizing completed c w with
  | zero =>
    rw [Nat.zero_mul]
    exact .refl w
  | succ left ih =>
    obtain ⟨⟨hcivil, hdrives⟩, hround⟩ := h.round hc f w
    rw [Nat.succ_mul, Nat.add_comm, Decorator.repeatChild]
    dsimp only
    -- a child that is still running ends the rounds early
    split
    · exact (h.grows f w hc).mono (Nat.le_add_right _ _)
    · rw [← hdrives] at hround ⊢
      exact hround.trans (ih (completed + 1) hcivil _)

/-- **The rounds of a retry**, of which there are no more than attempts left. -/
theorem retryChild (left failed : Nat) (hc : c.Everywhere (Node.Civil I)) (w : World G) :
    Grows I (left * c.drives) w (Decorator.retryChild m f left failed c w).2.2.2 := by
  induction left generalizing failed c w with
  | zero =>
    rw [Nat.zero_mul]
    exact .refl w
  | succ left ih =>
    obtain ⟨⟨hcivil, hdrives⟩, hround⟩ := h.round hc f w
    rw [Nat.succ_mul, Nat.add_comm, Decorator.retryChild]
    dsimp only
    -- the rounds are over as soon as the child is running or has succeeded
    split
    · exact (h.grows f w hc).mono (Nat.le_add_right _ _)
    · exact hround.mono (Nat.le_add_right _ _)
    · rw [← hdrives] at hround ⊢
      exact hround.trans (ih (failed + 1) hcivil _)

end Loops

/-! ### Composites and decorators -/

section Kinds

variable (h : Modest I m)

include h

/-- Concluding resets the children, which records nothing. -/
theorem conclude (c : Composite) {k : Nat} {w w' : World G} {cs' : List (Node G)}
    (hcs : (Drift.civil I).list.Leads cs w cs' w') (hgrows : Grows I k w w') (status : Status) :
    Grows I k w (c.conclude m cs' status w').world := by
  have hreset : Grows I 0 w' (w'.mapGame (m.onResetAll cs')) :=
    .of_eq (h.onResetAll hcs.nodes w'.game) rfl
  exact hgrows.trans hreset

/-- A sequence or a selector: the children that its cursor has passed are not ticked. -/
theorem tickInOrder (make : Nat → Composite) (goOn : Status) (cursor : Nat)
    (hcs : ∀ c ∈ cs, c.Everywhere (Node.Civil I)) (w : World G) :
    Grows I (Node.drivesAll cs) w
      (Composite.tickInOrder m make goOn f cursor cs w).world := by
  have hdrop : ∀ c ∈ cs.drop cursor, c.Everywhere (Node.Civil I) :=
    fun c hc => hcs c (List.mem_of_mem_drop hc)
  have htake : (Drift.civil I).list.nodes (cs.take cursor) :=
    fun c hc => hcs c (List.mem_of_mem_take hc)
  have hwalk := (h.walk (f := f) goOn hdrop w).mono (Node.drivesAll_drop_le cursor cs)
  obtain ⟨hleads, -⟩ := h.steps.walk (f := f) (w := w) goOn hdrop trivial
  have hall := hleads.append htake
  unfold Composite.tickInOrder
  dsimp only
  -- the composite stays as it is while it is running, and concludes otherwise
  split
  · exact hwalk
  · exact h.conclude _ hall hwalk _

/-- A parallel ticks each of its children once. -/
theorem tickParallel (policy : Policy) (hcs : ∀ c ∈ cs, c.Everywhere (Node.Civil I))
    (w : World G) :
    Grows I (Node.drivesAll cs) w (Composite.tickParallel m policy f cs w).world := by
  have hgrows := h.tickAll (f := f) hcs w
  obtain ⟨hleads, -⟩ := h.steps.tickAll (f := f) (w := w) hcs trivial
  unfold Composite.tickParallel
  dsimp only
  split
  · exact hgrows
  · exact h.conclude _ hleads hgrows _

/-- A composite that draws ticks one of its children. -/
theorem tickChosen (make : Draws → Composite) (pick : Generator → Nat) (d : Draws)
    (hcs : ∀ c ∈ cs, c.Everywhere (Node.Civil I)) (w : World G) :
    Grows I (Node.drivesAll cs) w (Composite.tickChosen m make pick f d cs w).world := by
  unfold Composite.tickChosen
  split
  · exact (Grows.refl w).mono (Nat.zero_le _)
  · exact h.tickAt _ hcs w

/-- **A composite** that is ticked. -/
theorem composite (c : Composite) (hcs : ∀ c ∈ cs, c.Everywhere (Node.Civil I)) (w : World G) :
    Grows I (Node.drivesAll cs) w (c.tick m f cs w).world := by
  cases c with
  | sequence cursor => exact h.tickInOrder _ _ cursor hcs w
  | selector cursor => exact h.tickInOrder _ _ cursor hcs w
  | parallel policy => exact h.tickParallel policy hcs w
  | random d => exact h.tickChosen _ _ d hcs w
  | weighted ws d => exact h.tickChosen _ _ d hcs w

/-- **A decorator around a civil child** records what the child drives, once for each round. -/
theorem tickAround (d : Decorator G) (hd : d.Civil I) (hc : c.Everywhere (Node.Civil I))
    (w : World G) : Grows I (d.rounds * c.drives) w (d.tickAround m f c w).world := by
  have htick := h.grows f w hc
  have hcivil := (h.civil_tick hc f w).1
  -- all but the loops tick the child once at most
  have hone {w' : World G} (hgrows : Grows I c.drives w w') : Grows I (1 * c.drives) w w' :=
    hgrows.mono (Nat.le_of_eq (Nat.one_mul _).symm)
  unfold Decorator.tickAround
  cases d with
  | inverter => exact hone htick
  | succeeder => exact hone htick
  | failer => exact hone htick
  | repeater times completed =>
    cases times with
    | none =>
      dsimp only
      split
      · exact hone htick
      · exact hone (htick.trans (h.resetIn hcivil _).2)
    | some times =>
      refine (h.repeatChild (times - completed) completed hc w).mono ?_
      exact Nat.mul_le_mul_right _ (Nat.sub_le _ _)
  | retry attempts failed =>
    refine (h.retryChild (attempts - failed) failed hc w).mono ?_
    exact Nat.mul_le_mul_right _ (Nat.sub_le _ _)
  | timeout limit started =>
    dsimp only
    split
    · exact (h.resetIn hc w).2.mono (Nat.zero_le _)
    · exact hone htick
  | cooldown duration finished =>
    dsimp only
    split
    · exact (Grows.refl w).mono (Nat.zero_le _)
    · exact hone htick
  | conditional guard =>
    have hguard : Grows I 0 w (w.mapGame fun _ => (guard f w.board w.game).2) :=
      .of_eq (hd f w.board w.game) rfl
    dsimp only
    split
    · exact hone ((hguard.trans (h.grows f _ hc)).mono (Nat.le_of_eq (Nat.zero_add _)))
    · exact (hguard.trans (h.resetIn hc _).2).mono (Nat.zero_le _)

/-- **A decorator** that is ticked. -/
theorem decorator (d : Decorator G) (hd : d.Civil I) {child : Option (Node G)}
    (hchild : ∀ c ∈ child, c.Everywhere (Node.Civil I)) (w : World G) :
    Grows I (d.rounds * Node.drivesOption child) w (d.tick m f child w).world := by
  cases child with
  | none => exact (Grows.refl w).mono (Nat.zero_le _)
  | some c => exact h.tickAround d hd (hchild c rfl) w

end Kinds

/-! ### Patterns -/

variable {sel : Selection (Node G) G}

/-- Looking for the best pattern asks conditions only. -/
theorem bestFrom {ps : List (Pattern (Node G) G)} (hps : ∀ p ∈ ps, p.Civil I)
    (s : Situation) (i : Nat) (best : Option (Nat × Int32)) {g : G} (hg : I g) :
    I (Repertoire.bestFrom s i ps best g).2 := by
  induction ps generalizing i best g with
  | nil => exact hg
  | cons p ps ih =>
    obtain ⟨hp, hps⟩ := List.forall_mem_cons.mp hps
    -- asking whether a pattern may start runs its condition at most, and only when it has cooled
    -- down
    have heligible : I (p.eligible s g).2 := by
      unfold Pattern.eligible Pattern.permitted
      split
      · split
        · next condition hcondition => exact hp condition hcondition s g hg
        · exact hg
      · exact hg
    rw [Repertoire.bestFrom]
    dsimp only
    split
    · exact ih hps _ _ heligible
    · exact ih hps _ _ heligible

/-- Taking in what a tick of a pattern gave. -/
theorem settle (hsel : sel.repertoire.All (Pattern.Orderly I)) (name : String) {w w' : World G}
    (hgrows : Grows I 0 w w') {x : Except PatternError (Status × Repertoire (Node G) G × Stage G)}
    (hx : ∀ o, x = .ok o →
      o.2.1.All (Pattern.Orderly I) ∧ (I w'.game → I o.2.2.game)) :
    (sel.settle f name w' x).node.repertoire.All (Pattern.Orderly I) ∧
      Grows I 1 w (sel.settle f name w' x).world := by
  -- on an error only a notice is left; otherwise the execution is recorded
  cases x with
  | error e =>
    refine ⟨hsel, ?_⟩
    have hlost : Grows I 0 w' (w'.notify (.patternLost e)) := .of_eq id rfl
    exact (hgrows.trans hlost).mono (Nat.zero_le 1)
  | ok o =>
    obtain ⟨hrepertoire, hkeeps⟩ := hx o rfl
    refine ⟨hrepertoire, ?_⟩
    have hstage : Grows I 0 w' { w' with stage := o.2.2 } := .of_eq hkeeps rfl
    exact (hgrows.trans hstage).execute f name o.1

section Patterns

variable (h : Modest I m)

include h

/-- **A pattern** that is ticked, on a blackboard of its own. -/
theorem pattern {p : Pattern (Node G) G} (hp : p.Orderly I) (s : Situation) (stage : Stage G) :
    (p.tick m s stage).2.1.Orderly I ∧ (I stage.game → I (p.tick m s stage).2.2.game) := by
  let f := s.frame.salted (nameSalt p.name)
  let w : World G := { board := p.briefedBoard s, stage }
  have hgrows := h.grows f w hp.2
  refine ⟨⟨hp.1, (h.civil_tick hp.2 f w).1⟩, fun hg => ?_⟩
  show I (World.game (Tree.warnIfFailing m f _ _ _ _))
  rw [Tree.game_warnIfFailing, World.game_emit]
  exact hgrows.keeps hg

/-- **A leaf that drives patterns** records one execution at most. -/
theorem selection (hsel : sel.repertoire.All (Pattern.Orderly I)) (f : Frame) (w : World G) :
    (sel.tick m f w).node.repertoire.All (Pattern.Orderly I) ∧
      Grows I 1 w (sel.tick m f w).world := by
  unfold Selection.tick
  cases hrunning : sel.running with
  | some name =>
    refine settle hsel name (.refl w) fun o ho => ?_
    obtain ⟨p, hp, rfl⟩ := Repertoire.eq_of_resume ho
    have horderly := hsel.of_mem (Repertoire.mem_available_of_get? hp).1
    have hticked := h.pattern horderly (.ofBoard f w.board) w.stage
    exact ⟨hsel.modify fun _ _ => hticked.1, hticked.2⟩
  | none =>
    have hasked : I w.game →
        I (sel.repertoire.select sel.archetype (.ofBoard f w.board) w.game).2 :=
      fun hg => bestFrom (fun p hp => (hsel.of_mem hp).1) _ _ _ hg
    dsimp only
    generalize sel.repertoire.select sel.archetype (.ofBoard f w.board) w.game = chosen at hasked
    obtain ⟨best, game⟩ := chosen
    have hselect : Grows I 0 w (w.mapGame fun _ => game) := .of_eq hasked rfl
    cases best with
    | none => exact ⟨hsel, (hselect.select f none).mono (Nat.zero_le 1)⟩
    | some p =>
      -- the selection is recorded before the pattern is ticked
      let w₁ := (w.mapGame fun _ => game).emit (Selection.selectEvent f (some p.name))
      let sel₁ : Selection (Node G) G := { sel with lastChoice := some p.name }
      have hsel₁ : sel₁.repertoire.All (Pattern.Orderly I) := hsel
      have hselected : Grows I 0 w w₁ := hselect.select f (some p.name)
      refine settle hsel₁ p.name hselected fun o ho => ?_
      obtain ⟨q, hq, rfl⟩ := Repertoire.eq_of_execute ho
      have hq : q.Orderly I := hsel.of_mem (Repertoire.mem_available_of_get? hq).1
      have hmarked : (q.markUsed f.now).Orderly I := hq
      have hticked := h.pattern hmarked (.ofBoard f w.board) w₁.stage
      exact ⟨hsel.modify fun _ _ => hticked.1, hticked.2⟩

/-- Resetting a leaf that drives patterns resets the one that is running. -/
theorem resetSelection (hsel : sel.repertoire.All (Pattern.Orderly I)) :
    (sel.reset m).repertoire.All (Pattern.Orderly I) := by
  unfold Selection.reset
  split
  · exact hsel.modify fun p hp => ⟨hp.1, (h.steps.reset hp.2).1⟩
  · exact hsel

/-- What its reset tells the game keeps what holds of it. -/
theorem onResetSelection (hsel : sel.repertoire.All (Pattern.Orderly I)) (g : G) (hg : I g) :
    I (sel.onReset m g) := by
  unfold Selection.onReset
  split
  · next p hp =>
    obtain ⟨name, -, hp⟩ := Option.bind_eq_some_iff.mp hp
    exact h.onReset g (hsel.of_mem (Repertoire.mem_available_of_get? hp).1).2 hg
  · exact hg

end Patterns

/-! ### Layers -/

section Layers

variable (h : Modest I m)

include h

/-- **A node over modest machines** stays civil, drives as much as before and records no more than
that. -/
theorem tickLayer {n : Node G} (hn : n.Everywhere (Node.Civil I)) (f : Frame) (w : World G) :
    ((Node.tickLayer m f n w).node.Everywhere (Node.Civil I) ∧
      (Node.tickLayer m f n w).node.drives = n.drives) ∧
      Grows I n.drives w (Node.tickLayer m f n w).world := by
  cases n with
  | composite title c cs =>
    obtain ⟨-, hcs⟩ := Node.everywhere_composite.mp hn
    obtain ⟨hleads, -⟩ := h.steps.composite (f := f) (w := w) c hcs trivial
    exact ⟨⟨Node.everywhere_composite.mpr ⟨trivial, hleads.nodes⟩,
      Drift.drivesAll_of_becomes hleads.becomes⟩, h.composite c hcs w⟩
  -- a decorator drives by its rounds, which are read off what it was built as
  | decorator title d child =>
    obtain ⟨hd, hchild⟩ := Node.everywhere_decorator.mp hn
    obtain ⟨hleads, -⟩ := h.steps.decorator (f := f) (w := w) d hchild trivial
    have hbuilt := d.asBuilt_tick m f child w
    refine ⟨⟨Node.everywhere_decorator.mpr ⟨?_, hleads.nodes⟩, ?_⟩, h.decorator d hd hchild w⟩
    · show (d.tick m f child w).node.1.Civil I
      rw [← Decorator.civil_asBuilt, hbuilt]
      exact d.civil_asBuilt.mpr hd
    · show (d.tick m f child w).node.1.rounds * Node.drivesOption _ = _
      rw [← Decorator.rounds_asBuilt, hbuilt, d.rounds_asBuilt,
        Drift.drivesOption_of_becomes hleads.becomes]
      rfl
  | leaf title l =>
    -- a leaf is ticked into a leaf of the same make
    have hl : l.Civil I := Node.everywhere_leaf.mp hn
    refine ⟨⟨Node.everywhere_leaf.mpr ?_, rfl⟩, hl.grows f w⟩
    show (l.tick f w).node.Civil I
    rw [← Leaf.civil_asBuilt, l.asBuilt_tick]
    exact l.civil_asBuilt.mpr hl
  | patterns title sel =>
    obtain ⟨hsel, hgrows⟩ := h.selection (Node.everywhere_civil_patterns.mp hn) f w
    exact ⟨⟨Node.everywhere_civil_patterns.mpr hsel, rfl⟩, hgrows⟩
  | custom c cs =>
    obtain ⟨hc, hcs⟩ := Node.everywhere_custom.mp hn
    let w₁ : World G := { board := (c.enter f w.board w.game).1,
                          stage := w.stage.mapGame fun _ => (c.enter f w.board w.game).2 }
    have henter : Grows I 0 w w₁ := .of_eq (hc.enter f w.board w.game) (hc.log f w.board w.game)
    obtain ⟨hleads, -⟩ := h.steps.tickAll (f := f) (w := w₁) hcs trivial
    have hchildren := h.tickAll (f := f) hcs w₁
    -- a custom node acts on its own before its children and after them; neither is recorded
    let o := Node.tickLayer m f (.custom c cs) w
    have hconclude : Grows I 0 (m.tickAll f cs w₁).2.2 o.world := .of_eq (hc.conclude _ _) rfl
    refine ⟨⟨Node.everywhere_custom.mpr ⟨hc, hleads.nodes⟩,
      Drift.drivesAll_of_becomes hleads.becomes⟩, ?_⟩
    exact ((henter.trans hchildren).trans hconclude).mono (Nat.le_of_eq (Nat.zero_add _))

/-- **Resetting a node over modest machines** leaves it civil and leaves what it drives. -/
theorem resetLayer {n : Node G} (hn : n.Everywhere (Node.Civil I)) :
    (Node.resetLayer m n).Everywhere (Node.Civil I) ∧ (Node.resetLayer m n).drives = n.drives := by
  cases n with
  | composite title c cs =>
    obtain ⟨hnodes, hbecomes⟩ := h.steps.resetAll (Node.everywhere_composite.mp hn).2
    exact ⟨Node.everywhere_composite.mpr ⟨trivial, hnodes⟩, Drift.drivesAll_of_becomes hbecomes⟩
  | decorator title d child =>
    obtain ⟨hd, hchild⟩ := Node.everywhere_decorator.mp hn
    obtain ⟨hnodes, hbecomes⟩ := h.steps.resetOption hchild
    refine ⟨Node.everywhere_decorator.mpr ⟨?_, hnodes⟩, ?_⟩
    · show d.reset.Civil I
      rw [← Decorator.civil_asBuilt, d.asBuilt_reset]
      exact d.civil_asBuilt.mpr hd
    · show d.reset.rounds * Node.drivesOption _ = _
      rw [← Decorator.rounds_asBuilt, d.asBuilt_reset, d.rounds_asBuilt,
        Drift.drivesOption_of_becomes hbecomes]
      rfl
  | leaf title l =>
    have hl : l.Civil I := Node.everywhere_leaf.mp hn
    refine ⟨Node.everywhere_leaf.mpr ?_, rfl⟩
    show l.reset.Civil I
    rw [l.reset_eq_asBuilt]
    exact l.civil_asBuilt.mpr hl
  | patterns title sel =>
    exact ⟨Node.everywhere_civil_patterns.mpr
      (h.resetSelection (Node.everywhere_civil_patterns.mp hn)), rfl⟩
  | custom c cs =>
    obtain ⟨hc, hcs⟩ := Node.everywhere_custom.mp hn
    obtain ⟨hnodes, hbecomes⟩ := h.steps.resetAll hcs
    exact ⟨Node.everywhere_custom.mpr ⟨hc, hnodes⟩, Drift.drivesAll_of_becomes hbecomes⟩

/-- What a reset tells the game keeps what holds of it, for every kind of node. -/
theorem onResetLayer {n : Node G} (hn : n.Everywhere (Node.Civil I)) (g : G) (hg : I g) :
    I (Node.onResetLayer m n g) := by
  cases n with
  | composite title c cs => exact h.onResetAll (Node.everywhere_composite.mp hn).2 g hg
  | decorator title d child => exact h.onResetOption (Node.everywhere_decorator.mp hn).2 g hg
  | leaf title l => exact hg
  | patterns title sel => exact h.onResetSelection (Node.everywhere_civil_patterns.mp hn) g hg
  | custom c cs =>
    obtain ⟨hc, hcs⟩ := Node.everywhere_custom.mp hn
    exact h.onResetAll hcs _ (hc.onReset g hg)

/-- **One layer of nodes** over modest machines is modest. -/
theorem layer : Modest I (Node.layer m) where
  steps := {
    tick := fun f _ w hn _ =>
      ⟨(h.tickLayer hn f w).1.1, (h.tickLayer hn f w).1.2, trivial⟩
    same := fun _ _ _ _ _ => rfl
    reset := h.resetLayer
    same_reset := rfl
    same_onReset := rfl
    same_name := rfl }
  grows f _ w hn := (h.tickLayer hn f w).2
  onReset g hn := h.onResetLayer hn g

end Layers

/-- The machine without levels does nothing. -/
theorem machine_zero : Modest I (Node.machine 0 : Machine (Node G) G) where
  steps := .machine_zero _
  grows _ _ w _ := (Grows.refl w).mono (Nat.zero_le _)
  onReset _ _ := id

/-- **Modest machines stand on each other**, one level on top of the next. -/
theorem machine (levels : Nat) : Modest I (Node.machine levels : Machine (Node G) G) := by
  induction levels with
  | zero => exact machine_zero
  | succ levels ih => exact ih.layer

end Modest

/-! ## (5) Nodes and trees -/

/-- **A tick of a civil node executes patterns no more often than it drives them**, keeps what holds
of the game and records no end of a tick. The node stays civil and drives as many. -/
theorem Node.modest : Modest I (Node.asMachine : Machine (Node G) G) where
  steps := .ofLevels fun k => (Modest.machine k).steps
  grows f {n} := (Modest.machine n.levels).grows f
  onReset {n} := (Modest.machine n.levels).onReset

/-- **A tick of a tree with a civil root**: what holds of the game is kept, and the log grows by as
many executions as the root drives patterns at most, and then by the end of this tick, the only one
that is recorded. -/
theorem Tree.grows_tick {t : Tree (Node G)} (ht : t.root.Everywhere (Node.Civil I)) (f : Frame)
    (s : Stage G) :
    let r := t.tick Node.asMachine f s
    (r.2.1.root.Everywhere (Node.Civil I) ∧ r.2.1.root.drives = t.root.drives) ∧
      (I s.game → I r.2.2.game) ∧
      ∃ events, World.Appends ⟨t.board, s⟩ ⟨r.2.1.board, r.2.2⟩ (events ++ [tickEvent f r.1]) ∧
        events.countP (·.tag = patternExecuteTag) ≤ t.root.drives ∧
        ∀ e ∈ events, e.tag ≠ treeTickTag := by
  intro r
  let w : World G := { board := t.board, stage := s }
  let o := t.root.tick f w
  have hgrows : Grows I t.root.drives w o.world := Node.modest.grows f w ht
  -- the event of the tick is recorded after all that its nodes have recorded
  obtain ⟨events, happends, hcount, htags⟩ := hgrows.appends
  let w' := t.warnIfFailing Node.asMachine f o.status o.node (o.world.emit (tickEvent f r.1))
  have hboard : w'.board = (o.world.emit (tickEvent f r.1)).board := board_warnIfFailing ..
  have hgame : w'.game = o.world.game :=
    (game_warnIfFailing ..).trans (World.game_emit o.world _)
  refine ⟨Node.modest.civil_tick ht f w, fun hs => ?_, events, ?_, hcount, htags⟩
  · show I w'.game
    rw [hgame]
    exact hgrows.keeps hs
  · -- the warning about a failing root is not on the blackboard
    have hemitted := happends.trans (.emit rfl (tickEvent f r.1))
    intro log hlog
    obtain ⟨log', hlog', hevents⟩ := hemitted log hlog
    refine ⟨log', ?_, hevents⟩
    show w'.board.get? Keys.traceLog = some log'
    rw [hboard]
    exact hlog'

end Instinct
