import Instinct.Proofs.Clean
import Instinct.Proofs.Notices
import Instinct.Proofs.Selection

/-! # Patterns start clean

* **`Selection.Resting`** — all patterns of a leaf are clean but for the one in progress.
* **`Selection.Course.Fresh`** — the invariant: the patterns are resting, and one is in progress
  exactly if the last thing done was a tick that reported so.
* **`Selection.Sound.noMoreLost_tick`** — no pattern is lost.
* **`Node.patterns_start_clean`** — after every run this is so, and the pattern that a tick starts
  begins clean. -/

namespace Instinct

variable {N G : Type}

/-- Leaves that drive patterns do not settle. -/
theorem Node.Settled.patternless {G : Type} {n : Node G} {t : Duration} (h : n.Settled t) :
    n.Patternless := by
  cases n with
  | patterns title s => exact h
  | _ => exact trivial

/-- One tick of a pattern whose root settles. -/
theorem Pattern.settled_tick {m : Machine N G} {I : Duration → N → Prop} {C : N → Prop}
    (h : m.Settles I C) {p : Pattern N G} {s : Situation} {t : Duration} (hp : I t p.tree.root)
    (ht : t ≤ s.frame.now) (stage : Stage G) :
    I s.frame.now (p.tick m s stage).2.1.tree.root ∧
      ((p.tick m s stage).1 ≠ .running → C (p.tick m s stage).2.1.tree.root) := by
  have hsalted := Frame.now_salted s.frame (nameSalt p.name)
  have ht : t ≤ (s.frame.salted (nameSalt p.name)).now := by rwa [hsalted]
  have hkeep := h.keep ⟨p.briefedBoard s, stage⟩ hp ht
  rw [hsalted] at hkeep
  exact ⟨hkeep, h.done ⟨p.briefedBoard s, stage⟩ hp ht⟩

namespace Selection

variable {m : Machine N G} {I : Duration → N → Prop} {C : N → Prop} {frame : Frame}
  {sel : Selection N G} {w : World G} {p : Pattern N G} {s : Situation} {t : Duration}
  {r : Repertoire N G} {archetype : String}

/-! ## Patterns at rest -/

/-- **Patterns at rest**: the roots of all of them keep the invariant `I`, and all are clean but
perhaps the one that `busy` names. -/
structure Resting (I : Duration → N → Prop) (C : N → Prop) (t : Duration) (sel : Selection N G)
    (busy : Option String) : Prop where
  kept : ∀ a, ∀ p ∈ sel.repertoire.available a, I t p.tree.root
  clean : ∀ a, ∀ p ∈ sel.repertoire.available a,
    (a = sel.archetype → busy ≠ some p.name) → C p.tree.root

/-- **A tick of one pattern** leaves the others at rest, and that one too unless it is running. -/
theorem Resting.drive (hrest : sel.Resting I C t (some p.name)) (h : m.Settles I C)
    (hd : sel.repertoire.Distinct) (hp : sel.repertoire.get? sel.archetype p.name = some p)
    (q : Pattern N G) (hname : q.name = p.name) (htree : q.tree = p.tree) (ht : t ≤ s.frame.now) :
    (sel.drive m frame q s w).node.Resting I C s.frame.now
      (sel.drive m frame q s w).node.running := by
  have hq : I t q.tree.root := by
    rw [htree]
    exact hrest.kept _ p (Repertoire.mem_available_of_get? hp).1
  obtain ⟨hkeep, hdone⟩ := Pattern.settled_tick h hq ht w.stage
  constructor
  · intro a o' ho'
    obtain ⟨o, ho, heq⟩ := (mem_available_drive sel hd).mp ho'
    split at heq
    · rw [← heq]
      exact hkeep
    · rw [← heq]
      exact h.later (hrest.kept a o ho) ht
  · intro a o' ho' hnot
    obtain ⟨o, ho, heq⟩ := (mem_available_drive sel hd).mp ho'
    rw [running_drive] at hnot
    split at heq
    · next hthis =>
      -- the pattern that was ticked is clean if it is no longer in progress
      rw [← heq]
      apply hdone
      intro hrunning
      rw [hrunning] at hnot
      exact hnot hthis.1.symm (heq ▸ rfl)
    · next hother =>
      rw [← heq]
      refine hrest.clean a o ho fun ha hbusy => hother ⟨ha.symm, ?_⟩
      rw [hname]
      exact (Option.some.inj hbusy).symm

/-- **A reset leaves all patterns at rest.** -/
theorem Resting.reset (hrest : sel.Resting I C t sel.running) (h : m.Settles I C)
    (hd : sel.repertoire.Distinct) : (sel.reset m).Resting I C t none := by
  constructor
  · intro a o' ho'
    obtain ⟨o, ho, heq⟩ := (mem_available_reset hd).mp ho'
    -- the pattern in progress is reset and so clean; the others were clean before
    split at heq
    · rw [← heq]
      exact h.reset (hrest.kept a o ho)
    · rw [← heq]
      exact hrest.kept a o ho
  · intro a o' ho' _
    obtain ⟨o, ho, heq⟩ := (mem_available_reset hd).mp ho'
    split at heq
    · rw [← heq]
      exact h.clean (hrest.kept a o ho)
    · next hother =>
      rw [← heq]
      exact hrest.clean a o ho fun ha hbusy => hother ⟨ha.symm, hbusy⟩

/-- Whatever is said to be in progress where nothing is makes no difference. -/
theorem Resting.of_none (hrest : sel.Resting I C t none) (busy : Option String) :
    sel.Resting I C t busy := by
  refine ⟨hrest.kept, fun a p hp _ => hrest.clean a p hp fun _ hbusy => ?_⟩
  cases hbusy

/-! ## Whole runs -/

namespace Course

variable {c : Course N G} {moves : List (Move G)}

/-- **What holds between two ticks**, the last of them at `t`: the patterns are at rest but for the
one in progress, and one is in progress exactly if the last thing done was a tick that said so. -/
structure Fresh (I : Duration → N → Prop) (C : N → Prop) (r : Repertoire N G) (archetype : String)
    (t : Duration) (c : Course N G) : Prop where
  steady : c.Steady r archetype
  resting : c.leaf.Resting I C t c.leaf.running
  reported : c.leaf.running.isSome ↔ c.report = some .running

/-- **A tick keeps the patterns fresh.** -/
theorem Fresh.tick (h : m.Settles I C) (hc : c.Fresh I C r archetype t) (ht : t ≤ frame.now) :
    (make m (.tick frame) c).2.Fresh I C r archetype frame.now := by
  refine ⟨hc.steady.tick, ?_, ?_⟩
  · have hstep := hc.steady.sound.step m frame c.world
    have hd := hc.steady.sound.distinct
    have hrest := hc.resting
    have hnow : t ≤ (Situation.ofBoard frame c.world.board).frame.now := ht
    show (c.leaf.tick m frame c.world).node.Resting I C frame.now
      (c.leaf.tick m frame c.world).node.running
    generalize c.leaf.tick m frame c.world = o at hstep ⊢
    cases hstep with
    | resume hrunning hp =>
      rw [hrunning] at hrest
      exact hrest.drive h hd hp _ rfl rfl hnow
    | @start p game hidle _ hp =>
      rw [hidle] at hrest
      -- nothing was in progress, so it is as if this pattern were
      have hrest : Resting I C t { c.leaf with lastChoice := some p.name } (some p.name) :=
        ⟨hrest.kept, (hrest.of_none _).clean⟩
      exact hrest.drive h hd hp (p.markUsed frame.now) rfl rfl hnow
    | rest hidle _ =>
      exact ⟨fun a p hp => h.later (hrest.kept a p hp) ht, hrest.clean⟩
  · have hstep := hc.steady.sound.step m frame c.world
    show (c.leaf.tick m frame c.world).node.running.isSome ↔
      some (c.leaf.tick m frame c.world).status = some .running
    generalize c.leaf.tick m frame c.world = o at hstep ⊢
    have hdrive : ∀ (status : Status) (name : String),
        (if status.isRunning then some name else none).isSome ↔ some status = some .running := by
      intro status name
      cases status <;> simp [Status.isRunning]
    cases hstep with
    | resume => exact hdrive _ _
    | start => exact hdrive _ _
    | rest hidle _ =>
      rw [hidle]
      simp

/-- **A reset keeps a course fresh**, at the same time. -/
theorem Fresh.reset (h : m.Settles I C) (hc : c.Fresh I C r archetype t) :
    (make m .reset c).2.Fresh I C r archetype t := by
  refine ⟨hc.steady.reset, ?_, ?_⟩
  · show (c.leaf.reset m).Resting I C t (c.leaf.reset m).running
    rw [running_reset]
    exact hc.resting.reset h hc.steady.sound.distinct
  · show (c.leaf.reset m).running.isSome ↔ none = some Status.running
    rw [running_reset]
    simp

/-- **Every run keeps the patterns fresh**, if time never goes back. -/
theorem fresh_run (h : m.Settles I C) (hd : r.Distinct)
    (hr : ∀ a, ∀ p ∈ r.available a, I .zero p.tree.root ∧ C p.tree.root) (archetype : String)
    (hforward : Move.Forward (moves ++ [.tick frame])) (w : World G) :
    ∃ t, t ≤ frame.now ∧ Fresh I C r archetype t
      (run m moves ⟨{ archetype, repertoire := r }, w, [], none⟩).2 := by
  have hinitial : Fresh I C r archetype .zero ⟨{ archetype, repertoire := r }, w, [], none⟩ := by
    refine ⟨steady_initial hd archetype w, ⟨?_, ?_⟩, ?_⟩
    · exact fun a p hp => (hr a p hp).1
    · exact fun a p hp _ => (hr a p hp).2
    · simp
  -- every move keeps the course fresh, and only ticks move its time on
  refine runSteps_keeps_until (I := Fresh I C r archetype) ?_ ?_ ?_ hforward hinitial
  · intro frame t c hc ht
    exact hc.tick h ht
  · intro t c hc
    exact hc.reset h
  · intro change t c hc
    exact ⟨hc.steady.meanwhile change, hc.resting, hc.reported⟩

end Course

/-! ## Nothing is lost -/

/-- **A tick of a sound leaf tells of no lost pattern**, if the roots of its patterns do not drive
patterns themselves. -/
theorem Sound.noMoreLost_tick {sel : Selection (Node G) G} (h : sel.Sound)
    (hp : ∀ p ∈ sel.repertoire.available sel.archetype,
      p.tree.root.Everywhere Node.Patternless) (frame : Frame) (w : World G) :
    w.stage.NoMoreLost (sel.tick Node.asMachine frame w).world.stage := by
  have hrefl := Stage.NoMoreLost.refl w.stage
  have hstep := h.step Node.asMachine frame w
  generalize sel.tick Node.asMachine frame w = o at hstep ⊢
  cases hstep with
  | @resume p _ hfound =>
    have hmem := (Repertoire.mem_available_of_get? hfound).1
    have hticked := Pattern.noMoreLost_tick (hp p hmem) (Situation.ofBoard frame w.board) w.stage
    rw [world_drive]
    exact .emit ⟨w.board, _⟩ hticked _
  | @start p game _ _ hfound =>
    have hmem := (Repertoire.mem_available_of_get? hfound).1
    have hmarked : (p.markUsed frame.now).tree.root.Everywhere Node.Patternless := hp p hmem
    -- asking the conditions and recording the choice tell nothing
    have hchosen := (hrefl.mapGame fun _ => game).emit (w.mapGame fun _ => game)
      (selectEvent frame (some p.name))
    have hticked := Pattern.noMoreLost_tick hmarked (Situation.ofBoard frame w.board)
      ((w.mapGame fun _ => game).emit (selectEvent frame (some p.name))).stage
    rw [world_drive]
    exact .emit ⟨_, _⟩ (hchosen.trans hticked) _
  | @rest game _ _ =>
    exact .emit (w.mapGame fun _ => game) (hrefl.mapGame fun _ => game) _

end Selection

namespace Node

open Selection

variable {r : Repertoire (Node G) G} {moves : List (Move G)} {frame : Frame}

/-- **Patterns start clean.** Take patterns whose trees are clean and made of plain nodes. After any
run in which time never goes back, one is in progress exactly if the last thing done was a tick that
reported so; it is the one that was started last, and it is still there. What a tick goes on with or
starts is found, so no pattern is lost. All patterns but the one in progress are clean, and so is
one that is being started. -/
theorem patterns_start_clean
    (hr : r.Filled fun p => p.tree.root.Clean ∧ p.tree.root.Everywhere Plain) (archetype : String)
    (hforward : Move.Forward (moves ++ [.tick frame])) (w : World G) :
    let c := (Course.run asMachine moves ⟨{ archetype, repertoire := r }, w, [], none⟩).2
    let o := c.leaf.tick asMachine frame c.world
    (asMachine.run moves (patternsOf archetype r) w).2 = (.patterns none c.leaf, c.world) ∧
    (Node.patterns none c.leaf).tick frame c.world = o.map (.patterns none) ∧
    (c.leaf.running.isSome ↔ c.report = some .running) ∧
    (∀ name, c.leaf.running = some name →
      c.leaf.lastChoice = some name ∧ (∃ p, r.get? archetype name = some p) ∧
      ∀ s stage, ∃ result,
        c.leaf.repertoire.resume asMachine archetype name s stage = .ok result) ∧
    (∀ s g p, (c.leaf.repertoire.select archetype s g).1 = some p → ∀ stage, ∃ result,
      c.leaf.repertoire.execute asMachine archetype p.name s stage = .ok result) ∧
    c.world.stage.NoMoreLost o.world.stage ∧
    (∀ a, ∀ p ∈ c.leaf.repertoire.available a,
      (a = archetype → c.leaf.running ≠ some p.name) → p.tree.root.Clean) ∧
    ∀ name ∈ c.leaf.started o.node, ∃ p,
      c.leaf.repertoire.get? archetype name = some p ∧ p.tree.root.Clean := by
  intro c o
  have hsettled : ∀ a, ∀ p ∈ r.available a,
      p.tree.root.Everywhere (Settled .zero) ∧ p.tree.root.Clean := by
    intro a p hp
    obtain ⟨hclean, hplain⟩ := hr.of_mem a p hp
    exact ⟨hclean.settled hplain .zero, hclean⟩
  obtain ⟨t, -, hfresh⟩ := Course.fresh_run settles hr.distinct hsettled archetype hforward w
  have hwhose : c.leaf.archetype = archetype := hfresh.steady.whose
  have hsound : c.leaf.Sound := hfresh.steady.sound
  have hclean : ∀ a, ∀ p ∈ c.leaf.repertoire.available a,
      (a = archetype → c.leaf.running ≠ some p.name) → p.tree.root.Clean := by
    intro a p hp hother
    exact hfresh.resting.clean a p hp fun ha => hother (ha.trans hwhose)
  have hrun := Course.run_patterns none moves ⟨{ archetype, repertoire := r }, w, [], none⟩
  refine ⟨congrArg Prod.snd hrun, tick_eq frame _ c.world, hfresh.reported, ?_, ?_, ?_, hclean, ?_⟩
  · intro name hname
    obtain ⟨hchoice, p, hp⟩ := hsound.running name hname
    rw [hwhose] at hp
    exact ⟨hchoice, hfresh.steady.get?_running hname, Repertoire.exists_resume hp asMachine⟩
  · intro s g p hp stage
    -- what is selected is there under its own name
    have hmem := (Repertoire.mayStart_of_select hp).mem
    have hget := (Repertoire.get?_eq_some_iff hsound.distinct).mpr ⟨hmem, rfl⟩
    exact Repertoire.exists_execute hget asMachine s stage
  · refine hsound.noMoreLost_tick (fun p hp => ?_) frame c.world
    exact (hfresh.resting.kept _ p hp).mono fun _ hn => hn.patternless
  · intro name hname
    rcases hsound.starts_tick asMachine frame c.world with ⟨hnone, -⟩ | ⟨p, hone, hidle, hmay, -⟩
    · rw [hnone] at hname
      cases hname
    · rw [hone, List.mem_singleton] at hname
      rw [hwhose] at hmay
      subst hname
      refine ⟨p, (Repertoire.get?_eq_some_iff hsound.distinct).mpr ⟨hmay.mem, rfl⟩, ?_⟩
      refine hclean archetype p hmay.mem fun _ hrunning => ?_
      rw [hidle] at hrunning
      cases hrunning

/-- A bite that is broken off and started anew. -/
theorem patterns_start_clean_bite :
    let r : Repertoire (Node Unit) Unit := .ofPatterns "wolf"
      [{ name := "bite", tree := { root := .wait (.ofMillis 5) } }]
    let moves : List (Move Unit) := [.tick (.atMillis 0), .reset, .tick (.atMillis 5)]
    let c := (Course.run asMachine moves
      ⟨{ archetype := "wolf", repertoire := r }, ⟨.empty, { game := () }⟩, [], none⟩).2
    (r.Filled fun p => p.tree.root.Clean ∧ p.tree.root.Everywhere Plain) ∧
    Move.Forward (moves ++ [.tick (.atMillis 10)]) ∧
    c.report = some .running ∧ c.leaf.running.isSome ∧
    (∀ name, c.leaf.running = some name → c.leaf.lastChoice = some name) := by
  intro r moves c
  have hwait : (Node.wait (.ofMillis 5) : Node Unit).Clean ∧
      (Node.wait (.ofMillis 5) : Node Unit).Everywhere Plain := by
    simp [Clean, wait, Idle, Leaf.Idle, Plain, kind, Leaf.kind]
  have hr : r.Filled fun p => p.tree.root.Clean ∧ p.tree.root.Everywhere Plain :=
    .register .empty hwait rfl
  have hforward : Move.Forward (moves ++ [.tick (.atMillis 10)]) := by decide
  obtain ⟨-, -, hreported, hrunning, -⟩ :=
    patterns_start_clean hr "wolf" hforward ⟨.empty, { game := () }⟩
  have hreport : c.report = some .running := by decide +kernel
  exact ⟨hr, hforward, hreport, hreported.mpr hreport, fun name h => (hrunning name h).1⟩

end Node

end Instinct
