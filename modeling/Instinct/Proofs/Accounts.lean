import Instinct.Demo.Battle
import Instinct.Proofs.Cadence
import Instinct.Proofs.Enemies
import Instinct.Proofs.Health
import Mathlib.Logic.Function.Iterate

/-! # The accounts of a battle

A battle counts in four places that know nothing of each other: the loop counts frames, a map counts
what the updates of the mind report, the log on the blackboard collects events, and the clock of the
mind numbers the frames. However the battle goes and whenever it ends, they agree.

* **`Mind.Updated`**, **`Mind.updated_update`** — what one update leaves in the log: the end of one
  tick if the mind thinks, with as many executions as its tree drives patterns at most.
* **`Battle.after`**, **`Battle.Alive`**, **`Battle.report`** — the battle frame by frame.
* **`Battle.Kept`**, **`Battle.kept_after`** — what holds after every number of frames.
* **`Battle.fought`**, **`Battle.ended`** — how many frames a run fights, and why no more.
* **`Summary.Balanced`**, **`Battle.balanced`** — the accounts of a summary agree. -/

namespace Instinct

/-! ## (1) One update -/

namespace Mind

variable {G : Type} [Collaborators G] {I : G → Prop} {m : Mind G} {dt : Duration} {s : Stage G}

/-- The situation is written beside the log. -/
theorem get?_traceLog_briefed :
    (m.briefed dt s).get? Keys.traceLog = m.tree.board.get? Keys.traceLog := by
  have hagent (agent : AgentId) (b : Blackboard) :
      (writeAgent agent s.game b).get? Keys.traceLog = b.get? Keys.traceLog := by
    rw [writeAgent, Blackboard.get?_set_of_ne _ (by decide),
      Blackboard.get?_set_of_ne _ (by decide), Blackboard.get?_set_of_ne _ (by decide)]
  unfold briefed refresh
  -- each slot that a frame writes bears another name than the log
  cases m.agent with
  | none =>
    dsimp only
    rw [Blackboard.get?_set_of_ne _ (by decide)]
  | some agent =>
    cases m.target with
    | none =>
      dsimp only
      rw [hagent, Blackboard.get?_set_of_ne _ (by decide)]
    | some target =>
      dsimp only
      rw [writeTarget, Blackboard.get?_set_of_ne _ (by decide),
        Blackboard.get?_set_of_ne _ (by decide), hagent, Blackboard.get?_set_of_ne _ (by decide)]

/-- **The mind thinks in the next frame**: its agent is alive, and it is the turn of the frame. -/
def Thinks (m : Mind G) (agent : AgentId) (dt : Duration) (s : Stage G) : Prop :=
  Collaborators.isDead agent s.game = false ∧ m.pace.thinksOn (m.frame dt).tick = true

instance (m : Mind G) (agent : AgentId) (dt : Duration) (s : Stage G) :
    Decidable (m.Thinks agent dt s) := inferInstanceAs (Decidable (_ ∧ _))

/-- **What one update leaves behind**, if what holds of the game is `I`. -/
structure Updated (I : G → Prop) (m : Mind G) (agent : AgentId) (dt : Duration) (s : Stage G)
    (r : Status × Mind G × Stage G) : Prop where
  /-- The tree is as civil as before. -/
  root : r.2.1.tree.root.Everywhere (Node.Civil I)
  drives : r.2.1.tree.root.drives = m.tree.root.drives
  keeps : I s.game → I r.2.2.game
  /-- The frame of a dead agent is a failure and touches nothing but the mind. -/
  dead : Collaborators.isDead agent s.game = true → r.1 = .failure ∧ r.2.2 = s
  /-- The log grows by the end of one tick if the mind thinks, and by at most as many executions as
  its tree drives patterns; otherwise by neither. -/
  log : ∃ events, World.Appends ⟨m.tree.board, s⟩ ⟨r.2.1.tree.board, r.2.2⟩ events ∧
    events.countP (·.tag = treeTickTag) = (if m.Thinks agent dt s then 1 else 0) ∧
    events.countP (·.tag = patternExecuteTag) ≤
      if m.Thinks agent dt s then m.tree.root.drives else 0

/-- Where the tree is left alone the log stays as it is. -/
theorem updated_of_quiet (hroot : m.tree.root.Everywhere (Node.Civil I)) {agent : AgentId}
    {status : Status} {m' : Mind G} (htree : m'.tree = (m.refreshed dt s).tree)
    (hthinks : ¬ m.Thinks agent dt s)
    (hdead : Collaborators.isDead agent s.game = true → status = .failure) :
    Updated I m agent dt s (status, m', s) where
  root := by
    rw [htree]
    exact hroot
  drives := by
    rw [htree]
    rfl
  keeps := id
  dead h := ⟨hdead h, rfl⟩
  log := by
    rw [if_neg hthinks, if_neg hthinks, htree]
    exact ⟨[], .of_eq get?_traceLog_briefed, rfl, Nat.le_refl 0⟩

/-- **One update of a mind with a civil tree.** -/
theorem updated_update (hroot : m.tree.root.Everywhere (Node.Civil I)) {agent : AgentId}
    (hagent : m.agent = some agent) (dt : Duration) (s : Stage G) :
    Updated I m agent dt s (m.update dt s) := by
  have hbriefed : (m.briefed dt s).flag Keys.isDead = Collaborators.isDead agent s.game := by
    rw [Blackboard.flag, Blackboard.getD, isDead_briefed hagent, Option.getD_some]
  cases hdead : Collaborators.isDead agent s.game with
  | true =>
    -- a dead agent: the frame ends before the tree is ticked
    rw [update_of_dead (hbriefed.trans hdead)]
    have hthinks : ¬ m.Thinks agent dt s := fun h => Bool.false_ne_true (h.1.symm.trans hdead)
    exact updated_of_quiet hroot rfl hthinks fun _ => rfl
  | false =>
    have halive : ¬ Collaborators.isDead agent s.game = true := Bool.eq_false_iff.mp hdead
    cases hturn : m.pace.thinksOn (m.frame dt).tick with
    | false =>
      -- not the turn of this frame: the last status is reported again
      rw [update_of_rests (hbriefed.trans hdead) hturn]
      have hthinks : ¬ m.Thinks agent dt s := fun h => Bool.false_ne_true (hturn.symm.trans h.2)
      exact updated_of_quiet hroot rfl hthinks fun h => absurd h halive
    | true =>
      rw [update_of_thinks (hbriefed.trans hdead) hturn]
      have hthinks : m.Thinks agent dt s := ⟨hdead, hturn⟩
      -- the tree is ticked, and its tick records one event of its own at the end
      obtain ⟨⟨hcivil, hdrives⟩, hkeeps, events, happends, hcount, htags⟩ :=
        Tree.grows_tick (t := (m.refreshed dt s).tree) hroot (m.frame dt) s
      refine ⟨hcivil, hdrives, hkeeps, fun h => absurd h halive, ?_⟩
      have hbefore : World.Appends (⟨m.tree.board, s⟩ : World G) ⟨m.briefed dt s, s⟩ [] :=
        .of_eq get?_traceLog_briefed
      rw [if_pos hthinks, if_pos hthinks]
      refine ⟨_, hbefore.trans happends, ?_, ?_⟩
      · have hnone : events.countP (·.tag = treeTickTag) = 0 :=
          List.countP_eq_zero.mpr fun e he => by simpa using htags e he
        rw [List.nil_append, List.countP_append, hnone]
        rfl
      · rw [List.nil_append, List.countP_append]
        exact hcount

end Mind

/-! ## (2) The battle, frame by frame -/

/-- Moving about leaves the numbers of a fighter as they are. -/
theorem Fighter.stats_execute (f : Fighter) (behavior : String) (place : Option Vec2) :
    (f.execute behavior place).2.stats = f.stats := by
  unfold execute
  split
  · rfl
  · dsimp only
    split
    · rfl
    · split <;> rfl

/-- **Whatever the trees ask of the arena**, a living fighter stays alive. -/
theorem Arena.keep_hale : Collaborators.Keep fun a : Arena => a.fighter.Hale where
  heal _ _ _ hamount h := h.heal hamount
  emitEvent _ _ _ _ h := h.of_stats rfl
  setState _ _ _ h := h.of_stats rfl
  executeBehavior _ behavior place g h := h.of_stats (g.fighter.stats_execute behavior place)
  spawnEffect _ _ _ h := h
  schedule _ _ _ _ h := h

namespace Battle

variable (plan : BattlePlan)

/-- The stage of a frame on which the mind is updated: the fighter has taken its damage. -/
def struck (b : Battle) : Stage Arena :=
  b.stage.mapGame (·.mapFighter (suffer plan.incomingDps plan.dt))

/-- **The agent is alive in the next frame**, when its mind is updated. -/
def Alive (b : Battle) : Prop := (b.struck plan).game.fighter.isDead = false

instance (b : Battle) : Decidable (b.Alive plan) := inferInstanceAs (Decidable (_ = _))

/-- **What the next frame is counted as**: the status that the update of the mind reports. -/
def report (b : Battle) : Status := (b.mind.update plan.dt (b.struck plan)).1

/-- A frame of a battle is a frame of the mind, in the game as the blow left it. -/
theorem frame_eq (b : Battle) :
    b.frame plan =
      let r := b.mind.update plan.dt (b.struck plan)
      { mind := r.2.1, stage := r.2.2
        statuses := b.statuses.increment (b.report plan).word } := rfl

/-- **The battle after a number of frames**, each with one update of the mind. -/
def after (b : Battle) (n : Nat) : Battle := (frame plan)^[n] b

/-- One frame more comes after all others. -/
theorem after_succ (b : Battle) (n : Nat) : b.after plan (n + 1) = (b.after plan n).frame plan :=
  Function.iterate_succ_apply' (frame plan) n b

/-- One frame more may as well come before all others. -/
theorem after_frame (b : Battle) (n : Nat) : (b.frame plan).after plan n = b.after plan (n + 1) :=
  (Function.iterate_succ_apply (frame plan) n b).symm

/-- In how many of the first frames the agent is alive and it is their turn. -/
def thoughts (pace : Pace) (b : Battle) (n : Nat) : Nat :=
  (List.range n).countP fun i => (b.after plan i).Alive plan ∧ pace.Due i

/-- One frame more is one more to think on, if the agent is alive and it is due. -/
theorem thoughts_succ (pace : Pace) (b : Battle) (n : Nat) :
    b.thoughts plan pace (n + 1) =
      b.thoughts plan pace n + if (b.after plan n).Alive plan ∧ pace.Due n then 1 else 0 := by
  rw [thoughts, List.range_succ, List.countP_append, List.countP_singleton]
  simp only [decide_eq_true_eq]
  rfl

/-- What the first frames are counted as, in words. -/
def words (b : Battle) (n : Nat) : List String :=
  (List.range n).map fun i => ((b.after plan i).report plan).word

/-- One frame more is one more report. -/
theorem words_succ (b : Battle) (n : Nat) :
    b.words plan (n + 1) = b.words plan n ++ [((b.after plan n).report plan).word] := by
  rw [words, List.range_succ, List.map_append]
  rfl

/-! ## (3) What holds after every number of frames -/

variable {plan} {b₀ : Battle} {pace : Pace} {n : Nat}

/-- **What holds of a battle after a number of frames.** -/
structure Kept (plan : BattlePlan) (pace : Pace) (b₀ : Battle) (n : Nat) : Prop where
  agent : (b₀.after plan n).mind.agent = some Arena.fighterId
  pacing : (b₀.after plan n).mind.pace = pace
  tick : (b₀.after plan n).mind.clock.tick = .ofNat n
  root : (b₀.after plan n).mind.tree.root.Everywhere (Node.Civil fun a : Arena => a.fighter.Hale)
  drives : (b₀.after plan n).mind.tree.root.drives = 1
  robust : ¬ (b₀.after plan n).stage.game.fighter.stats.maxHealth ≤ 0
  statuses : (b₀.after plan n).statuses = .tally (b₀.words plan n)
  log : ∃ log, (b₀.after plan n).mind.tree.board.get? Keys.traceLog = some log ∧
    log.events.toList.countP (·.tag = treeTickTag) = b₀.thoughts plan pace n ∧
    log.events.toList.countP (·.tag = patternExecuteTag) ≤ b₀.thoughts plan pace n

/-- **The mind thinks in the next frame** if its agent is alive and it is the turn of the frame, by
its number. -/
theorem Kept.thinks_iff (h : Kept plan pace b₀ n) (hfits : n + pace.offset.toNat < 2 ^ 64) :
    (b₀.after plan n).mind.Thinks Arena.fighterId plan.dt ((b₀.after plan n).struck plan) ↔
      (b₀.after plan n).Alive plan ∧ pace.Due n := by
  have htick : ((b₀.after plan n).mind.frame plan.dt).tick = .ofNat n := h.tick
  rw [Mind.Thinks, h.pacing, htick, pace.thinksOn_eq hfits, decide_eq_true_eq]
  rfl

/-- What the next update leaves behind. -/
theorem Kept.updated (h : Kept plan pace b₀ n) :
    Mind.Updated (fun a : Arena => a.fighter.Hale) (b₀.after plan n).mind Arena.fighterId plan.dt
      ((b₀.after plan n).struck plan)
      ((b₀.after plan n).mind.update plan.dt ((b₀.after plan n).struck plan)) :=
  Mind.updated_update h.root h.agent plan.dt _

/-- **After a frame the agent is dead** if it was so when its mind was updated, and not otherwise:
nothing that its tree does kills it, and nothing revives the dead. -/
theorem Kept.isDead_after (h : Kept plan pace b₀ n) :
    (b₀.after plan (n + 1)).stage.game.fighter.isDead = true ↔ ¬ (b₀.after plan n).Alive plan := by
  rw [after_succ, frame_eq]
  constructor
  · -- alive when the frame began, it is alive after it: only the blow can kill
    intro hafter halive
    have hale := h.updated.keeps ⟨halive, h.robust⟩
    exact Bool.false_ne_true (hale.alive.symm.trans hafter)
  · -- dead when the frame began, the frame leaves the game alone
    intro halive
    have hstruck : ((b₀.after plan n).struck plan).game.fighter.isDead = true :=
      Bool.eq_true_of_not_eq_false halive
    dsimp only
    rw [(h.updated.dead hstruck).2]
    exact hstruck

/-- The frame of a dead agent is counted as a failure. -/
theorem Kept.report_of_dead (h : Kept plan pace b₀ n) (hdead : ¬ (b₀.after plan n).Alive plan) :
    (b₀.after plan n).report plan = .failure :=
  (h.updated.dead (Bool.eq_true_of_not_eq_false hdead)).1

/-- The agent can still be healed after the frame, dead or alive. -/
theorem Kept.robust_succ (h : Kept plan pace b₀ n) :
    ¬ ((b₀.after plan n).frame plan).stage.game.fighter.stats.maxHealth ≤ 0 := by
  have hstruck : ¬ ((b₀.after plan n).struck plan).game.fighter.stats.maxHealth ≤ 0 := h.robust
  rw [frame_eq]
  cases halive : ((b₀.after plan n).struck plan).game.fighter.isDead with
  | false => exact (h.updated.keeps ⟨halive, hstruck⟩).robust
  | true =>
    dsimp only
    rw [(h.updated.dead halive).2]
    exact hstruck

/-- **One more frame.** -/
theorem Kept.succ (h : Kept plan pace b₀ n) (hfits : n + pace.offset.toNat < 2 ^ 64) :
    -- each account is carried over the frame by what that frame adds to it
    Kept plan pace b₀ (n + 1) := by
  obtain ⟨log, hlog, hticks, hexecuted⟩ := h.log
  obtain ⟨events, happends, hends, hexecutes⟩ := h.updated.log
  rw [h.drives] at hexecutes
  rw [if_congr (h.thinks_iff hfits) rfl rfl] at hends hexecutes
  obtain ⟨log', hlog', hevents⟩ := happends log hlog
  have hafter := after_succ plan b₀ n
  constructor <;> rw [hafter]
  case agent => exact (Mind.agent_update ..).trans h.agent
  case pacing => exact (Mind.pace_update ..).trans h.pacing
  case tick =>
    rw [frame_eq]
    dsimp only
    rw [Mind.clock_update, UInt64.ofNat_add]
    exact congrArg (· + 1) h.tick
  case root => exact h.updated.root
  case drives => exact h.updated.drives.trans h.drives
  case robust => exact h.robust_succ
  case statuses =>
    rw [words_succ, NameMap.tally_concat, ← h.statuses]
    rfl
  case log =>
    refine ⟨log', hlog', ?_, ?_⟩
    · rw [hevents, List.countP_append, thoughts_succ, hticks, hends]
    · rw [hevents, List.countP_append, thoughts_succ]
      exact Nat.add_le_add hexecuted hexecutes

/-- **After every number of frames** it holds, if it holds before the first. -/
theorem kept_after (h : Kept plan pace b₀ 0) (hfits : n + pace.offset.toNat ≤ 2 ^ 64) :
    Kept plan pace b₀ n := by
  induction n with
  | zero => exact h
  | succ n ih => exact (ih (by omega)).succ (by omega)

/-- Before the first frame. -/
theorem kept_start {name : String} {tuning : Tuning} {archetype : Archetype Arena}
    (h : Archetype.find name tuning = .ok archetype) (plan : BattlePlan) (pace : Pace) :
    Kept plan pace (start name archetype pace) 0 := by
  have hcivil := Archetype.civil_of_find Arena.keep_hale h
  have hlog : (start name archetype pace).mind.tree.board.get? Keys.traceLog = some .empty :=
    Blackboard.get?_set _ _ _
  exact ⟨rfl, rfl, rfl, hcivil.root, hcivil.drives, hcivil.maxHealth, rfl,
    .empty, hlog, rfl, Nat.le_refl 0⟩

/-! ## (4) How many frames a run fights -/

/-- **How many frames a run fights**: up to a number, or up to the first after which the fighter is
dead. -/
def fought (plan : BattlePlan) : (frames : Nat) → Battle → Nat
  | 0, _ => 0
  | frames + 1, b =>
    let b := b.frame plan
    if b.stage.game.fighter.isDead then 1 else fought plan frames b + 1

/-- A run ends after the frames that it fights. -/
theorem run_eq_after (frames : Nat) (b : Battle) :
    run plan frames b = b.after plan (fought plan frames b) := by
  induction frames generalizing b with
  | zero => rfl
  | succ frames ih =>
    rw [run, fought]
    split
    · rfl
    · rw [ih, after_frame]

/-- **A run ends in one of two ways**: all its frames are fought, and the fighter lives after each;
or the last frame fought is the first after which the fighter is dead. -/
theorem ended (plan : BattlePlan) (frames : Nat) (b : Battle) :
    (fought plan frames b = frames ∧
      ∀ i < frames, ¬ (b.after plan (i + 1)).stage.game.fighter.isDead = true) ∨
    ∃ last < frames, fought plan frames b = last + 1 ∧
      (b.after plan (last + 1)).stage.game.fighter.isDead = true ∧
      ∀ i < last, ¬ (b.after plan (i + 1)).stage.game.fighter.isDead = true := by
  induction frames generalizing b with
  | zero => exact .inl ⟨rfl, fun i hi => absurd hi (Nat.not_lt_zero i)⟩
  | succ frames ih =>
    rw [fought]
    by_cases hdead : (b.frame plan).stage.game.fighter.isDead = true
    · rw [if_pos hdead]
      exact .inr ⟨0, Nat.succ_pos frames, rfl, hdead, fun i hi => absurd hi (Nat.not_lt_zero i)⟩
    · rw [if_neg hdead]
      -- what is said of the frames after the first holds of them by the rest of the run
      have hall {k : Nat}
          (h : ∀ i < k, ¬ ((b.frame plan).after plan (i + 1)).stage.game.fighter.isDead = true) :
          ∀ i < k + 1, ¬ (b.after plan (i + 1)).stage.game.fighter.isDead = true := by
        intro i hi
        cases i with
        | zero => exact hdead
        | succ i =>
          rw [← after_frame]
          exact h i (Nat.lt_of_succ_lt_succ hi)
      rcases ih (b.frame plan) with ⟨hfought, halive⟩ | ⟨last, hlast, hfought, hlate, halive⟩
      · exact .inl ⟨congrArg (· + 1) hfought, hall halive⟩
      · rw [after_frame] at hlate
        exact .inr ⟨last + 1, Nat.succ_lt_succ hlast, congrArg (· + 1) hfought, hlate, hall halive⟩

end Battle

/-! ## (5) Summaries -/

/-- **The accounts of a summary agree**, given the battle before its first frame. -/
structure Summary.Balanced (plan : BattlePlan) (pace : Pace) (b₀ : Battle) (s : Summary) :
    Prop where
  /-- The summary is of the battle after as many frames as it says, with one update of the mind
  each. -/
  summed : s = .ofBattle s.archetype (b₀.after plan s.frames)
  /-- So many frames the run fought. -/
  fought : s.frames = Battle.fought plan plan.frames b₀
  /-- So many updates the clock of the mind has counted. -/
  clock : (b₀.after plan s.frames).mind.clock.tick.toNat = s.frames
  /-- Each status is counted in as many frames as it was reported in. -/
  statuses : ∀ word, s.statuses.count word =
    (List.range s.frames).countP fun i => ((b₀.after plan i).report plan).word = word
  /-- The counts of all statuses add up to the frames. -/
  total : s.statuses.total = s.frames
  /-- The agent is dead after a frame if it was so when its mind was updated. -/
  fate : ∀ i < s.frames,
    (b₀.after plan (i + 1)).stage.game.fighter.isDead = true ↔ ¬ (b₀.after plan i).Alive plan
  /-- All frames were fought and the agent lived through them; or it died, and the last frame is the
  first one in which it was dead, which is counted as a failure. -/
  ending : (s.frames = plan.frames ∧ ∀ i < s.frames, (b₀.after plan i).Alive plan) ∨
    ∃ last < plan.frames, s.frames = last + 1 ∧ ¬ (b₀.after plan last).Alive plan ∧
      (∀ i < last, (b₀.after plan i).Alive plan) ∧ (b₀.after plan last).report plan = .failure
  /-- The tree was ticked in the frames whose turn it was while the agent was alive. -/
  ticks : s.trace.count treeTickTag =
    (List.range s.frames).countP fun i => (b₀.after plan i).Alive plan ∧ pace.Due i
  /-- Patterns were executed no more often. -/
  executions : s.trace.count patternExecuteTag ≤ s.trace.count treeTickTag

namespace Battle

/-- What the log counts is told by the events that bear the tag. -/
theorem count_traceCounts {b : Battle} {log : TraceLog}
    (hlog : b.mind.tree.board.get? Keys.traceLog = some log) (tag : String) :
    b.traceCounts.count tag = log.events.toList.countP (·.tag = tag) := by
  have htally : b.traceCounts = .tally (log.events.toList.map (·.tag)) := by
    rw [traceCounts, hlog, NameMap.tally, List.foldl_map]
    exact (Array.foldl_toList _).symm
  rw [htally, NameMap.count_tally, List.count, List.countP_map]
  rfl

/-- **After every number of frames the accounts agree** that a summary would give of them. -/
theorem Kept.accounts {frames : Nat} (h : ∀ n ≤ frames, Kept plan pace b₀ n) (name : String) :
    let s := Summary.ofBattle name (b₀.after plan frames)
    s.frames = frames ∧ s.statuses.total = frames ∧
      (∀ word, s.statuses.count word =
        (List.range frames).countP fun i => ((b₀.after plan i).report plan).word = word) ∧
      s.trace.count treeTickTag = b₀.thoughts plan pace frames ∧
      s.trace.count patternExecuteTag ≤ s.trace.count treeTickTag := by
  intro s
  have hkept := h frames (Nat.le_refl frames)
  obtain ⟨log, hlog, hticks, hexecutes⟩ := hkept.log
  have hstatuses : s.statuses = .tally (b₀.words plan frames) := hkept.statuses
  have htotal : s.statuses.total = frames := by
    rw [hstatuses, NameMap.total_tally, words, List.length_map, List.length_range]
  have htick : s.trace.count treeTickTag = b₀.thoughts plan pace frames :=
    (count_traceCounts hlog treeTickTag).trans hticks
  -- every account is read off the invariant after the last frame
  refine ⟨htotal, htotal, fun word => ?_, htick, ?_⟩
  · rw [hstatuses, NameMap.count_tally, List.count, words, List.countP_map]
    rfl
  · rw [htick]
    exact (count_traceCounts hlog patternExecuteTag).trans_le hexecutes

/-- How a run of so many frames ends for the agent. -/
theorem Kept.ending {frames : Nat} (h : ∀ i ≤ fought plan frames b₀, Kept plan pace b₀ i) :
    (fought plan frames b₀ = frames ∧
      ∀ i < fought plan frames b₀, (b₀.after plan i).Alive plan) ∨
    ∃ last < frames, fought plan frames b₀ = last + 1 ∧ ¬ (b₀.after plan last).Alive plan ∧
      (∀ i < last, (b₀.after plan i).Alive plan) ∧ (b₀.after plan last).report plan = .failure := by
  have halive {i : Nat} (hi : i < fought plan frames b₀)
      (hlives : ¬ (b₀.after plan (i + 1)).stage.game.fighter.isDead = true) :
      (b₀.after plan i).Alive plan :=
    Decidable.not_not.mp fun hdead => hlives ((h i (Nat.le_of_lt hi)).isDead_after.mpr hdead)
  rcases ended plan frames b₀ with ⟨hall, hlives⟩ | ⟨last, hlast, hdied, hdead, hlives⟩
  · -- the time was up: the agent was alive after every frame
    exact .inl ⟨hall, fun i hi => halive hi (hlives i (Nat.lt_of_lt_of_eq hi hall))⟩
  · -- the agent died in the last frame, and that frame reported the failure
    have hlast' : last < fought plan frames b₀ :=
      Nat.lt_of_lt_of_eq (Nat.lt_succ_self last) hdied.symm
    have hkept := h last (Nat.le_of_lt hlast')
    have hdead' := hkept.isDead_after.mp hdead
    refine .inr ⟨last, hlast, hdied, hdead', fun i hi => ?_, hkept.report_of_dead hdead'⟩
    exact halive (Nat.lt_trans hi hlast') (hlives i hi)

/-- No more frames are fought than are asked for. -/
theorem fought_le (plan : BattlePlan) (frames : Nat) (b : Battle) :
    fought plan frames b ≤ frames := by
  rcases ended plan frames b with ⟨hall, -⟩ | ⟨last, hlast, hdied, -⟩
  · exact Nat.le_of_eq hall
  · exact Nat.le_trans (Nat.le_of_eq hdied) hlast

/-- **The accounts of every battle agree**, whatever archetype, tuning, pace and plan it is fought
with, if there is such an archetype and a counter of 32 bits has room for the frames. -/
theorem balanced {name : String} {tuning : Tuning} {pace : Pace} {plan : BattlePlan}
    {summary : Summary} (hframes : plan.frames < 2 ^ 32)
    (hfight : fight name tuning pace plan = .ok summary) :
    ∃ archetype, Archetype.find name tuning = .ok archetype ∧
      summary.Balanced plan pace (start name archetype pace) := by
  unfold fight at hfight
  cases hfind : (Archetype.find name tuning : Except ArchetypeError (Archetype Arena)) with
  | error e =>
    rw [hfind] at hfight
    cases hfight
  | ok archetype =>
    rw [hfind] at hfight
    let b₀ := start name archetype pace
    let n := fought plan plan.frames b₀
    have hn : n ≤ plan.frames := fought_le plan plan.frames b₀
    have hsummary : summary = .ofBattle name (b₀.after plan n) := by
      rw [← run_eq_after]
      exact (Except.ok.inj hfight).symm
    -- offsets are words of 32 bits too, so the sum of both has room in 64
    have hkept : ∀ i ≤ n, Kept plan pace b₀ i := by
      intro i hi
      have hoffset := pace.offset.toNat_lt
      exact kept_after (kept_start hfind plan pace) (by omega)
    have haccounts := Kept.accounts hkept name
    rw [← hsummary] at haccounts
    obtain ⟨hcounted, htotal, hstatuses, hticks, hexecutions⟩ := haccounts
    refine ⟨archetype, rfl, ?summed, hcounted, ?clock, ?statuses, htotal.trans hcounted.symm,
      ?fate, ?ending, ?ticks, hexecutions⟩ <;> rw [hcounted]
    case summed => exact hsummary ▸ hsummary
    case clock =>
      rw [(hkept n (Nat.le_refl n)).tick, UInt64.toNat_ofNat']
      exact Nat.mod_eq_of_lt (by omega)
    case statuses => exact hstatuses
    case fate => exact fun i hi => (hkept i (Nat.le_of_lt hi)).isDead_after
    case ending => exact Kept.ending hkept
    case ticks => exact hticks

/-- A brute that closes in, roars and is dead in the third of five frames. -/
theorem balanced_brute :
    let plan : BattlePlan := { frames := 5, dt := .ofSeconds 4, incomingDps := 25 }
    plan.frames < 2 ^ 32 ∧
      ∃ summary archetype, fight "brute" .empty {} plan = .ok summary ∧
        Archetype.find "brute" .empty = .ok archetype ∧
        summary.Balanced plan {} (start "brute" archetype {}) ∧
        summary.frames = 3 ∧ summary.statuses.count "failure" = 1 ∧
        summary.trace.count treeTickTag = 2 ∧ summary.trace.count patternExecuteTag = 1 := by
  intro plan
  have hframes : plan.frames < 2 ^ 32 := by decide
  have hcounts : (fight "brute" .empty {} plan).toOption.map (fun s =>
      (s.frames, s.statuses.count "failure", s.trace.count treeTickTag,
        s.trace.count patternExecuteTag)) = some (3, 1, 2, 1) := by decide +kernel
  -- the numbers are computed once, and the accounts are those of the general theorem
  cases hfight : fight "brute" .empty {} plan with
  | error e =>
    rw [hfight] at hcounts
    cases hcounts
  | ok summary =>
    rw [hfight] at hcounts
    obtain ⟨archetype, hfind, hbalanced⟩ := balanced hframes hfight
    simp only [Except.toOption, Option.map_some, Option.some.injEq, Prod.mk.injEq] at hcounts
    exact ⟨hframes, summary, archetype, rfl, hfind, hbalanced, hcounts⟩

end Battle

end Instinct
