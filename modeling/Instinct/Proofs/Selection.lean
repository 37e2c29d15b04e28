import Instinct.Node.Kinds
import Instinct.Pattern.Selection
import Instinct.Proofs.Coupling.Exact
import Instinct.Proofs.Repertoire
import Instinct.Proofs.Runs

/-! # What a leaf that drives patterns does, tick by tick

* **`Selection.Step`** — all that a tick can do: go on with the pattern in progress, start one that
  may be started, or fail as there is none.
* **`Selection.Sound`** — names are distinct and the pattern in progress is there.
* **`Selection.ticked`**, **`Selection.started`** — the patterns whose trees were ticked between two
  moments, and those of them that were not in progress before.
* **`Selection.Sound.starts_tick`** — a tick starts nothing and stamps nothing, or starts one
  pattern that may be started and stamps that one.
* **`Selection.Course`** — a leaf at work, with the history of its starts and what the last
  operation reported.
* **`Selection.Course.run_patterns`** — the course is the run of the leaf as a node, and more. -/

namespace Instinct

variable {N G : Type}

namespace Selection

variable {m : Machine N G} {frame : Frame} {sel : Selection N G} {w : World G} {p q : Pattern N G}
  {s : Situation} {name : String}

/-! ## One tick -/

/-- **Tick a pattern of the leaf**: its tree decides the status, and the pattern stays in progress
if it is still running. -/
def drive (m : Machine N G) (frame : Frame) (sel : Selection N G) (p : Pattern N G) (s : Situation)
    (w : World G) : Outcome (Selection N G) G :=
  let (status, p', stage) := p.tick m s w.stage
  ⟨status,
    { sel with
      repertoire := sel.repertoire.modify sel.archetype p.name fun _ => p'
      running := if status.isRunning then some p.name else none },
    { w with stage }.emit (executeEvent frame p.name status)⟩

/-- **All that a tick can do.** The situation is read off the blackboard before anything else. -/
inductive Step (m : Machine N G) (frame : Frame) (sel : Selection N G) (w : World G) :
    Outcome (Selection N G) G → Prop
  | resume {p : Pattern N G} (running : sel.running = some p.name)
      (found : sel.repertoire.get? sel.archetype p.name = some p) :
      Step m frame sel w (sel.drive m frame p (Situation.ofBoard frame w.board) w)
  | start {p : Pattern N G} {game : G} (idle : sel.running = none)
      (best : sel.repertoire.select sel.archetype (Situation.ofBoard frame w.board) w.game =
        (some p, game))
      (found : sel.repertoire.get? sel.archetype p.name = some p) :
      Step m frame sel w
        ({ sel with lastChoice := some p.name }.drive m frame (p.markUsed frame.now)
          (Situation.ofBoard frame w.board)
          ((w.mapGame fun _ => game).emit (selectEvent frame (some p.name))))
  | rest {game : G} (idle : sel.running = none)
      (nothing : sel.repertoire.select sel.archetype (Situation.ofBoard frame w.board) w.game =
        (none, game)) :
      Step m frame sel w
        ⟨.failure, sel, (w.mapGame fun _ => game).emit (selectEvent frame none)⟩

/-- **Names are distinct and the pattern in progress is there**, as the one started last. -/
structure Sound (sel : Selection N G) : Prop where
  distinct : sel.repertoire.Distinct
  running : ∀ name ∈ sel.running, sel.lastChoice = some name ∧
    ∃ p, sel.repertoire.get? sel.archetype name = some p

/-- **A tick of a sound leaf is one of the three steps**, and no pattern is missing. -/
theorem Sound.step (h : sel.Sound) (m : Machine N G) (frame : Frame) (w : World G) :
    Step m frame sel w (sel.tick m frame w) := by
  cases hrunning : sel.running with
  | some name =>
    obtain ⟨-, p, hp⟩ := h.running name hrunning
    obtain ⟨hmem, rfl⟩ := Repertoire.mem_available_of_get? hp
    have htick : sel.tick m frame w =
        sel.drive m frame p (Situation.ofBoard frame w.board) w := by
      simp only [tick, hrunning, Repertoire.resume, Repertoire.find_eq_ok hp, settle, drive]
    rw [htick]
    exact .resume hrunning hp
  | none =>
    cases hselect :
      sel.repertoire.select sel.archetype (Situation.ofBoard frame w.board) w.game with
    | mk best game =>
      cases best with
      | none =>
        have htick : sel.tick m frame w =
            ⟨.failure, sel, (w.mapGame fun _ => game).emit (selectEvent frame none)⟩ := by
          simp only [tick, hrunning, hselect]
        rw [htick]
        exact .rest hrunning hselect
      | some p =>
        -- the best pattern is the one that its name stands for
        have hp : sel.repertoire.get? sel.archetype p.name = some p := by
          have hbest := Repertoire.mayStart_of_select (congrArg Prod.fst hselect)
          exact (Repertoire.get?_eq_some_iff h.distinct).mpr ⟨hbest.mem, rfl⟩
        have htick : sel.tick m frame w =
            { sel with lastChoice := some p.name }.drive m frame (p.markUsed frame.now)
              (Situation.ofBoard frame w.board)
              ((w.mapGame fun _ => game).emit (selectEvent frame (some p.name))) := by
          simp only [tick, hrunning, hselect, Repertoire.execute, Repertoire.find_eq_ok hp, settle,
            drive]
          rfl
        rw [htick]
        exact .start hrunning hselect hp

/-! ## What a tick leaves of the patterns -/

/-- The archetype stays the same. -/
@[simp] theorem archetype_drive :
    (sel.drive m frame p s w).node.archetype = sel.archetype := rfl

/-- The pattern stays in progress if its tree is still running. -/
theorem running_drive : (sel.drive m frame p s w).node.running =
    if (p.tick m s w.stage).1.isRunning then some p.name else none := rfl

/-- The world is the one that the tree left, with the execution recorded. -/
theorem world_drive : (sel.drive m frame p s w).world =
    World.emit ⟨w.board, (p.tick m s w.stage).2.2⟩
      (executeEvent frame p.name (p.tick m s w.stage).1) := rfl

/-- The pattern that was ticked is put back in its place. -/
theorem repertoire_drive : (sel.drive m frame p s w).node.repertoire =
    sel.repertoire.modify sel.archetype p.name fun _ => (p.tick m s w.stage).2.1 := rfl

/-- A pattern after a tick is the one that was ticked or is left as it was. -/
theorem mem_available_drive (sel : Selection N G) (hd : sel.repertoire.Distinct) {a : String} :
    p ∈ (sel.drive m frame q s w).node.repertoire.available a ↔
      ∃ o ∈ sel.repertoire.available a,
        (if sel.archetype = a ∧ o.name = q.name then (q.tick m s w.stage).2.1 else o) = p := by
  rw [repertoire_drive, Repertoire.mem_available_modify hd]

/-- The patterns of other archetypes are left alone. -/
theorem available_drive (sel : Selection N G) {a : String} (ha : a ≠ sel.archetype) :
    (sel.drive m frame q s w).node.repertoire.available a = sel.repertoire.available a :=
  Repertoire.available_modify_of_ne ha _

/-- A tick changes no rules. -/
theorem rules_drive (sel : Selection N G) (hd : sel.repertoire.Distinct)
    (hp : sel.repertoire.get? sel.archetype p.name = some p) (hq : q.rules = p.rules) :
    (sel.drive m frame q s w).node.repertoire.rules = sel.repertoire.rules := by
  rw [repertoire_drive]
  refine Repertoire.rules_modify hd fun o ho hname => ?_
  have hqp : q.name = p.name := congrArg (·.1) hq
  -- the pattern of that name is the one that was found
  have hop : sel.repertoire.get? sel.archetype p.name = some o :=
    (Repertoire.get?_eq_some_iff hd).mpr ⟨ho, hname.trans hqp⟩
  obtain rfl := Option.some.inj (hp.symm.trans hop)
  rw [Pattern.rules_tick, hq]

/-- What is fixed about the patterns is not changed by a tick. -/
theorem Sound.rules_tick (h : sel.Sound) (m : Machine N G) (frame : Frame) (w : World G) :
    (sel.tick m frame w).node.repertoire.rules = sel.repertoire.rules := by
  have hstep := h.step m frame w
  generalize sel.tick m frame w = o at hstep ⊢
  cases hstep with
  | resume _ hp => exact rules_drive sel h.distinct hp rfl
  | start _ _ hp =>
    exact rules_drive { sel with lastChoice := _ } h.distinct hp (Pattern.rules_markUsed _ _)
  | rest _ _ => rfl

/-- Neither is the archetype. -/
theorem Sound.archetype_tick (h : sel.Sound) (m : Machine N G) (frame : Frame) (w : World G) :
    (sel.tick m frame w).node.archetype = sel.archetype := by
  have hstep := h.step m frame w
  generalize sel.tick m frame w = o at hstep ⊢
  cases hstep <;> rfl

/-- **A tick leaves the patterns of other archetypes alone.** -/
theorem Sound.available_tick (h : sel.Sound) {a : String} (ha : a ≠ sel.archetype)
    (m : Machine N G) (frame : Frame) (w : World G) :
    (sel.tick m frame w).node.repertoire.available a = sel.repertoire.available a := by
  have hstep := h.step m frame w
  generalize sel.tick m frame w = o at hstep ⊢
  cases hstep with
  | resume _ _ => exact available_drive sel ha
  | start _ _ _ => exact available_drive { sel with lastChoice := _ } ha
  | rest _ _ => rfl

/-- Whatever is in progress after a tick was started last and is there. -/
theorem Sound.tick (h : sel.Sound) (m : Machine N G) (frame : Frame) (w : World G) :
    (sel.tick m frame w).node.Sound := by
  have hrules := h.rules_tick m frame w
  have harchetype := h.archetype_tick m frame w
  refine ⟨h.distinct.of_rules hrules, fun name hname => ?_⟩
  rw [harchetype]
  -- a name that stood for a pattern before the tick does so after it
  have hthere : ∀ p, sel.repertoire.get? sel.archetype name = some p →
      ∃ q, (sel.tick m frame w).node.repertoire.get? sel.archetype name = some q :=
    fun p hp => Repertoire.exists_get?_of_rules h.distinct hrules hp
  have hstep := h.step m frame w
  generalize sel.tick m frame w = o at hstep hname hthere ⊢
  cases hstep with
  | @resume p hrunning hp =>
    rw [Option.mem_def, running_drive] at hname
    split at hname
    · obtain rfl := Option.some.inj hname
      exact ⟨(h.running _ hrunning).1, hthere p hp⟩
    · cases hname
  | @start p _ _ _ hp =>
    rw [Option.mem_def, running_drive] at hname
    split at hname
    · obtain rfl := Option.some.inj hname
      exact ⟨rfl, hthere p hp⟩
    · cases hname
  | rest hidle _ =>
    have hname : sel.running = some name := hname
    rw [hidle] at hname
    cases hname

/-! ## Resets -/

/-- **The patterns after a reset**: the one in progress is reset, and the others are as they
were. -/
theorem available_reset_eq (hd : sel.repertoire.Distinct) (a : String) :
    (sel.reset m).repertoire.available a = (sel.repertoire.available a).map fun p =>
      if sel.archetype = a ∧ sel.running = some p.name then p.reset m else p := by
  unfold reset
  cases hrunning : sel.running with
  | none => simp
  | some name =>
    rw [Repertoire.available_modify hd]
    simp [eq_comm]

/-- A reset is one of the pattern in progress, and the others are left as they were. -/
theorem mem_available_reset (hd : sel.repertoire.Distinct) {a : String} :
    p ∈ (sel.reset m).repertoire.available a ↔
      ∃ o ∈ sel.repertoire.available a,
        (if sel.archetype = a ∧ sel.running = some o.name then o.reset m else o) = p := by
  rw [available_reset_eq hd, List.mem_map]

/-- The patterns of other archetypes are left alone by a reset. -/
theorem available_reset {a : String} (ha : a ≠ sel.archetype) :
    (sel.reset m).repertoire.available a = sel.repertoire.available a := by
  unfold reset
  cases sel.running with
  | none => rfl
  | some name => exact Repertoire.available_modify_of_ne ha _

/-- What is fixed about the patterns is not changed by a reset. -/
theorem rules_reset (hd : sel.repertoire.Distinct) :
    (sel.reset m).repertoire.rules = sel.repertoire.rules := by
  unfold reset
  cases sel.running with
  | none => rfl
  | some name => exact Repertoire.rules_modify hd fun q _ _ => q.rules_reset m

/-- No pattern is in progress after a reset. -/
@[simp] theorem running_reset : (sel.reset m).running = none := by
  unfold reset
  split
  · rfl
  · next h => exact h

/-- A reset does not change the archetype. -/
@[simp] theorem archetype_reset : (sel.reset m).archetype = sel.archetype := by
  unfold reset
  split <;> rfl

/-- A sound leaf is sound after a reset. -/
theorem Sound.reset (h : sel.Sound) (m : Machine N G) : (sel.reset m).Sound := by
  refine ⟨h.distinct.of_rules (rules_reset h.distinct), fun name hname => ?_⟩
  rw [Option.mem_def, running_reset] at hname
  cases hname

/-! ## Which patterns were ticked -/

/-- How often the tree of a pattern of the leaf was ticked. -/
def ticksOf (sel : Selection N G) (name : String) : Option UInt64 :=
  (sel.repertoire.get? sel.archetype name).map (·.tree.ticks)

/-- **The patterns whose trees were ticked once** between two moments. -/
def ticked (before after : Selection N G) : List String :=
  ((before.repertoire.available before.archetype).map (·.name)).filter fun name =>
    after.ticksOf name = (before.ticksOf name).map (· + 1)

/-- **The patterns that were started** between two moments: ticked, though not in progress
before. -/
def started (before after : Selection N G) : List String :=
  (before.ticked after).filter fun name => before.running ≠ some name

/-- A pattern that is there has been ticked some number of times. -/
theorem ticksOf_of_mem (hp : p ∈ sel.repertoire.available sel.archetype) :
    ∃ k, sel.ticksOf p.name = some k := by
  unfold ticksOf Repertoire.get?
  cases hfind : (sel.repertoire.available sel.archetype).find? (·.name = p.name) with
  | none => simpa using List.find?_eq_none.mp hfind p hp
  | some q => exact ⟨q.tree.ticks, rfl⟩

/-- Nothing is ticked between a moment and itself. -/
theorem ticked_self (sel : Selection N G) : sel.ticked sel = [] := by
  rw [ticked, List.filter_eq_nil_iff]
  intro name hname
  obtain ⟨p, hp, rfl⟩ := List.mem_map.mp hname
  obtain ⟨k, hk⟩ := ticksOf_of_mem hp
  simp [hk]

/-- Ticking a pattern ticks its tree and no other. -/
theorem ticksOf_drive (sel : Selection N G) (hd : sel.repertoire.Distinct)
    (hp : sel.repertoire.get? sel.archetype p.name = some p) (hq : q.name = p.name)
    (hticks : q.tree.ticks = p.tree.ticks) :
    (sel.drive m frame q s w).node.ticksOf name =
      if name = p.name then some (p.tree.ticks + 1) else sel.ticksOf name := by
  -- the pattern is put back under the name that it had
  have hkeeps : ∀ o : Pattern N G, o.name = q.name →
      ((fun _ : Pattern N G => (q.tick m s w.stage).2.1) o).name = q.name := fun _ _ => rfl
  unfold ticksOf
  rw [repertoire_drive, archetype_drive, Repertoire.get?_modify hd hkeeps, hq]
  by_cases hname : name = p.name
  · rw [if_pos hname, hname, hp]
    simp [Pattern.tick, Tree.tick, hticks]
  · rw [if_neg hname]
    cases hget : sel.repertoire.get? sel.archetype name with
    | none => rfl
    | some o =>
      obtain ⟨-, rfl⟩ := Repertoire.mem_available_of_get? hget
      simp [hname]

/-- **A tick that goes on with a pattern or starts it ticks that pattern alone.** -/
theorem ticked_drive (sel : Selection N G) (hd : sel.repertoire.Distinct)
    (hp : sel.repertoire.get? sel.archetype p.name = some p) (hq : q.name = p.name)
    (hticks : q.tree.ticks = p.tree.ticks) :
    sel.ticked (sel.drive m frame q s w).node = [p.name] := by
  have hmem := (Repertoire.mem_available_of_get? hp).1
  have hnames : p.name ∈ (sel.repertoire.available sel.archetype).map (·.name) :=
    List.mem_map_of_mem hmem
  have hthis : sel.ticksOf p.name = some p.tree.ticks := by rw [ticksOf, hp, Option.map_some]
  -- the count of this pattern has grown by one and every other is what it was
  have honly : ∀ name ∈ (sel.repertoire.available sel.archetype).map (·.name),
      decide ((sel.drive m frame q s w).node.ticksOf name = (sel.ticksOf name).map (· + 1)) =
        (name == p.name) := by
    intro name hname
    rw [ticksOf_drive sel hd hp hq hticks]
    by_cases heq : name = p.name
    · simp [heq, hthis]
    · obtain ⟨o, ho, rfl⟩ := List.mem_map.mp hname
      obtain ⟨k, hk⟩ := ticksOf_of_mem ho
      simp [heq, hk]
  rw [ticked, List.filter_congr honly, List.filter_beq,
    List.count_eq_one_of_mem (hd sel.archetype) hnames]
  rfl

/-- Going on with a pattern starts none. -/
theorem started_resume (hd : sel.repertoire.Distinct)
    (hp : sel.repertoire.get? sel.archetype p.name = some p)
    (hrunning : sel.running = some p.name) :
    sel.started (sel.drive m frame p s w).node = [] := by
  rw [started, ticked_drive sel hd hp rfl rfl, hrunning]
  simp

/-- A leaf that has nothing in progress starts what it ticks. -/
theorem started_of_idle {after : Selection N G} (hidle : sel.running = none) :
    sel.started after = sel.ticked after := by
  rw [started, hidle]
  simp

/-- Starting a pattern starts that one. -/
theorem started_start (hd : sel.repertoire.Distinct)
    (hp : sel.repertoire.get? sel.archetype p.name = some p) (hidle : sel.running = none)
    (choice : Option String) (now : Duration) :
    sel.started ({ sel with lastChoice := choice }.drive m frame (p.markUsed now) s w).node =
      [p.name] := by
  rw [started_of_idle hidle]
  exact ticked_drive { sel with lastChoice := choice } hd hp rfl rfl

/-! ## When a pattern is started -/

/-- **What a tick does to the stamps**: it starts nothing and leaves them alone, or it starts one
pattern that may be started and stamps that one with the present time. -/
theorem Sound.starts_tick (h : sel.Sound) (m : Machine N G) (frame : Frame) (w : World G) :
    (sel.started (sel.tick m frame w).node = [] ∧
      (sel.running = none → ∀ p, ¬ Repertoire.MayStart (Situation.ofBoard frame w.board)
        (sel.repertoire.available sel.archetype) w.game p) ∧
      ∀ q ∈ (sel.tick m frame w).node.repertoire.available sel.archetype,
        ∃ o ∈ sel.repertoire.available sel.archetype, q.name = o.name ∧ q.lastUsed = o.lastUsed) ∨
    ∃ p, sel.started (sel.tick m frame w).node = [p.name] ∧ sel.running = none ∧
      Repertoire.MayStart (Situation.ofBoard frame w.board)
        (sel.repertoire.available sel.archetype) w.game p ∧
      ∀ q ∈ (sel.tick m frame w).node.repertoire.available sel.archetype,
        (q.name = p.name ∧ q.lastUsed = some frame.now) ∨
        (q.name ≠ p.name ∧ q ∈ sel.repertoire.available sel.archetype) := by
  have hstep := h.step m frame w
  generalize sel.tick m frame w = o at hstep ⊢
  cases hstep with
  | @resume p hrunning hp =>
    refine .inl ⟨started_resume h.distinct hp hrunning, fun hidle => ?_, fun q hq => ?_⟩
    · -- a pattern in progress is gone on with, so there is nothing to start
      rw [hrunning] at hidle
      cases hidle
    · obtain ⟨o, ho, hoq⟩ := (mem_available_drive sel h.distinct).mp hq
      split at hoq
      · subst hoq
        exact ⟨p, (Repertoire.mem_available_of_get? hp).1, rfl, rfl⟩
      · subst hoq
        exact ⟨o, ho, rfl, rfl⟩
  | @start p game hidle hselect hp =>
    -- what was selected may be started, and is the only one that is stamped
    have hmay := Repertoire.mayStart_of_select (congrArg Prod.fst hselect)
    refine .inr ⟨p, started_start h.distinct hp hidle _ _, hidle, hmay, fun q hq => ?_⟩
    obtain ⟨o, ho, hoq⟩ :=
      (mem_available_drive { sel with lastChoice := some p.name } h.distinct).mp hq
    split at hoq
    · subst hoq
      exact .inl ⟨rfl, rfl⟩
    · next hne =>
      subst hoq
      exact .inr ⟨fun hname => hne ⟨rfl, hname⟩, ho⟩
  | rest hidle hselect =>
    -- nothing was selected because nothing may be started
    have hnone := Repertoire.select_eq_none_iff.mp (congrArg Prod.fst hselect)
    refine .inl ⟨?_, fun _ => hnone, fun q hq => ⟨q, hq, rfl, rfl⟩⟩
    rw [started_of_idle hidle, ticked_self]

/-- **A tick starts a pattern exactly when none is in progress and one may be started.** -/
theorem Sound.starts_iff (h : sel.Sound) (m : Machine N G) (frame : Frame) (w : World G) :
    (∃ name, name ∈ sel.started (sel.tick m frame w).node) ↔
      sel.running = none ∧ ∃ p, Repertoire.MayStart (Situation.ofBoard frame w.board)
        (sel.repertoire.available sel.archetype) w.game p := by
  rcases h.starts_tick m frame w with ⟨hnone, hmay, -⟩ | ⟨p, hone, hidle, hmay, -⟩
  · rw [hnone]
    constructor
    · rintro ⟨name, hname⟩
      cases hname
    · rintro ⟨hidle, p, hp⟩
      exact absurd hp (hmay hidle p)
  · rw [hone]
    exact ⟨fun _ => ⟨hidle, p, hmay⟩, fun _ => ⟨p.name, List.mem_singleton_self _⟩⟩

/-- **While a pattern is in progress a tick goes on with exactly that one.** -/
theorem Sound.ticked_of_running (h : sel.Sound) (hrunning : sel.running = some name)
    (m : Machine N G) (frame : Frame) (w : World G) :
    sel.ticked (sel.tick m frame w).node = [name] := by
  have hstep := h.step m frame w
  generalize sel.tick m frame w = o at hstep ⊢
  cases hstep with
  | @resume p hp hfound =>
    obtain rfl := Option.some.inj (hrunning.symm.trans hp)
    exact ticked_drive sel h.distinct hfound rfl rfl
  | start hidle _ _ =>
    rw [hrunning] at hidle
    cases hidle
  | rest hidle _ =>
    rw [hrunning] at hidle
    cases hidle

/-! ## A leaf at work -/

/-- **A start**: which pattern, and the time of the tick. -/
structure Start where
  name : String
  time : Duration
deriving DecidableEq

/-- **A leaf at work**, with the history of its starts, oldest first, and what the last tick
reported unless a reset came after it. -/
structure Course (N G : Type) where
  leaf : Selection N G
  world : World G
  starts : List Start := []
  report : Option Status := none

namespace Course

/-- One thing done to a leaf at work. Starts are seen from outside: by the trees that were
ticked. -/
def make (m : Machine N G) : Move G → Course N G → Option Status × Course N G
  | .tick frame, c =>
    let o := c.leaf.tick m frame c.world
    (some o.status,
      { leaf := o.node
        world := o.world
        starts := c.starts ++ (c.leaf.started o.node).map fun name => ⟨name, frame.now⟩
        report := some o.status })
  | .reset, c =>
    (none,
      { c with
        leaf := c.leaf.reset m
        world := c.world.mapGame (c.leaf.onReset m)
        report := none })
  | .meanwhile change, c => (none, { c with world := change c.world })

/-- **The course of a run.** -/
def run (m : Machine N G) (moves : List (Move G)) (c : Course N G) : List Status × Course N G :=
  runSteps (make m) moves c

/-- A move of the leaf as a node is the move of the course. -/
theorem make_patterns (title : Option String) (a : Move G) (c : Course (Node G) G) :
    Node.asMachine.make a (.patterns title c.leaf, c.world) =
      ((make Node.asMachine a c).1, .patterns title (make Node.asMachine a c).2.leaf,
        (make Node.asMachine a c).2.world) := by
  -- one layer is enough to see that the node is a leaf of this kind
  have hlayer : Node.asMachine.make a (.patterns title c.leaf, c.world) =
      (Node.layer Node.asMachine).make a (.patterns title c.leaf, c.world) :=
    congrArg (fun m : Machine (Node G) G => m.make a (.patterns title c.leaf, c.world))
      Node.asMachine_eq
  rw [hlayer]
  cases a <;> rfl

/-- The leaf as a node takes the course, whose history it does not know of. -/
theorem run_patterns (title : Option String) (moves : List (Move G)) (c : Course (Node G) G) :
    Node.asMachine.run moves (.patterns title c.leaf) c.world =
      ((c.run Node.asMachine moves).1, .patterns title (c.run Node.asMachine moves).2.leaf,
        (c.run Node.asMachine moves).2.world) := by
  unfold Machine.run run
  induction moves generalizing c with
  | nil => rfl
  | cons a moves ih =>
    rw [runSteps_cons, runSteps_cons, make_patterns, ih]

/-- **What no move changes**: whose patterns are driven, the rules of each, and all patterns of
other archetypes; and the leaf stays sound. -/
structure Steady (r : Repertoire N G) (archetype : String) (c : Course N G) : Prop where
  whose : c.leaf.archetype = archetype
  sound : c.leaf.Sound
  rules : c.leaf.repertoire.rules = r.rules
  others : ∀ a, a ≠ archetype → c.leaf.repertoire.available a = r.available a

variable {r : Repertoire N G} {archetype : String} {c : Course N G}

/-- **At first nothing has changed.** -/
theorem steady_initial (hd : r.Distinct) (archetype : String) (w : World G) :
    Steady r archetype ⟨{ archetype, repertoire := r }, w, [], none⟩ where
  whose := rfl
  sound := ⟨hd, fun _ hname => nomatch hname⟩
  rules := rfl
  others _ _ := rfl

/-- A tick changes none of it. -/
theorem Steady.tick (h : c.Steady r archetype) :
    (make m (.tick frame) c).2.Steady r archetype where
  whose := (h.sound.archetype_tick m frame c.world).trans h.whose
  sound := h.sound.tick m frame c.world
  rules := (h.sound.rules_tick m frame c.world).trans h.rules
  others a ha :=
    (h.sound.available_tick (h.whose ▸ ha) m frame c.world).trans (h.others a ha)

/-- Neither does a reset. -/
theorem Steady.reset (h : c.Steady r archetype) : (make m .reset c).2.Steady r archetype where
  whose := archetype_reset.trans h.whose
  sound := h.sound.reset m
  rules := (rules_reset h.sound.distinct).trans h.rules
  others a ha := (available_reset (h.whose ▸ ha)).trans (h.others a ha)

/-- Nor does what happens in between, as it touches the world only. -/
theorem Steady.meanwhile (h : c.Steady r archetype) (change : World G → World G) :
    (make m (.meanwhile change) c).2.Steady r archetype :=
  ⟨h.whose, h.sound, h.rules, h.others⟩

/-- The pattern in progress is one of those that were added. -/
theorem Steady.get?_running (h : c.Steady r archetype)
    (hrunning : c.leaf.running = some name) : ∃ p, r.get? archetype name = some p := by
  obtain ⟨-, p, hp⟩ := h.sound.running name hrunning
  rw [h.whose] at hp
  exact Repertoire.exists_get?_of_rules h.sound.distinct h.rules.symm hp

end Course

end Selection

end Instinct
