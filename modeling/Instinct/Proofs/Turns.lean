import Instinct.Mind
import Instinct.Proofs.Runs
import Mathlib.Algebra.Ring.Nat

/-! # Turns: what happens to a mind

* **`Turn G`** — a frame, another target, another agent, or the game going on by itself.
* **`Look`** — what a frame presents to a mind, and what the mind reports.
* **`Mind.run`** — take turns one after the other and collect the looks.
* **`Mind.update_of_dead`**, **`Mind.update_of_thinks`**, **`Mind.update_of_rests`** — the three
  things that a frame can come to.
* **`Mind.exists_update`** — a frame leaves everything else about a mind as it is.
* **`Mind.run_concat`** — one more turn at the end of a run. -/

namespace Instinct

/-! ## Turns and looks -/

/-- **What happens to a mind.** -/
inductive Turn (G : Type) where
  /-- One frame. -/
  | update (dt : Duration)
  /-- The mind aims at another target, or at none. -/
  | aim (target : Option TargetId)
  /-- The mind is given another agent. -/
  | drive (agent : AgentId)
  /-- The game goes on by itself and may change the blackboard too. -/
  | meanwhile (change : World G → World G)

/-- **What a frame presents to a mind**, and what the mind reports. -/
structure Look where
  frame : Frame
  /-- The blackboard, once the situation is written on it. -/
  board : Blackboard
  status : Status

namespace Turn

variable {G : Type}

/-- The length of a frame. -/
def span? : Turn G → Option Duration
  | update dt => some dt
  | _ => none

/-- The lengths of the frames, in order. -/
def spans (turns : List (Turn G)) : List Duration := turns.filterMap span?

/-- The simulated time after frames of some lengths; it stops at the end of time. -/
def elapsed (spans : List Duration) : Duration := .ofNanos (spans.map (·.nanos)).sum

/-- One frame more takes its time. -/
theorem elapsed_concat (spans : List Duration) (dt : Duration) :
    elapsed (spans ++ [dt]) = elapsed spans + dt := by
  apply Duration.ext
  simp only [elapsed, List.map_append, List.sum_append, List.map_cons, List.map_nil,
    List.sum_singleton, Duration.nanos_ofNanos, Duration.nanos_add]
  omega

end Turn

namespace Mind

variable {G : Type}

/-- The next frame, if it is of length `dt`. -/
def frame (m : Mind G) (dt : Duration) : Frame := (m.clock.advance dt).1

variable [Collaborators G]

/-- The blackboard of the next frame, once the situation is written on it. -/
def briefed (m : Mind G) (dt : Duration) (s : Stage G) : Blackboard :=
  m.refresh (m.frame dt) s.game m.tree.board

/-- The mind in the next frame, before anything else happens. -/
def refreshed (m : Mind G) (dt : Duration) (s : Stage G) : Mind G :=
  { m with
    clock := (m.clock.advance dt).2
    tree := { m.tree with board := m.briefed dt s } }

/-- One thing that happens to a mind. -/
def take : Turn G → Mind G × Stage G → Option Look × Mind G × Stage G
  | .update dt, (m, s) =>
    let (status, m', s') := m.update dt s
    (some ⟨m.frame dt, m.briefed dt s, status⟩, m', s')
  | .aim target, (m, s) => (none, m.setTarget target, s)
  | .drive agent, (m, s) => (none, m.withAgent agent, s)
  | .meanwhile change, (m, s) =>
    let w := change { board := m.tree.board, stage := s }
    (none, m.mapBoard fun _ => w.board, w.stage)

/-- **The run of a mind**: what its frames presented, and what is left of it and the stage. -/
def run (turns : List (Turn G)) (m : Mind G) (s : Stage G) : List Look × Mind G × Stage G :=
  runSteps take turns (m, s)

/-! ## What a frame comes to -/

section Update

variable {m : Mind G} {dt : Duration} {s : Stage G}

/-- The blackboard of a frame tells whether the agent is dead. -/
theorem isDead_briefed {agent : AgentId} (h : m.agent = some agent) :
    (m.briefed dt s).get? Keys.isDead = some (Collaborators.isDead agent s.game) := by
  -- nothing that is written later goes into the slot of the dead
  have hwritten (b : Blackboard) : (writeAgent agent s.game b).get? Keys.isDead
      = some (Collaborators.isDead agent s.game) := by
    rw [writeAgent, Blackboard.get?_set_of_ne _ (by decide), Blackboard.get?_set]
  unfold briefed refresh
  rw [h]
  cases m.target with
  | none => exact hwritten _
  | some target =>
    dsimp only
    rw [writeTarget, Blackboard.get?_set_of_ne _ (by decide),
      Blackboard.get?_set_of_ne _ (by decide)]
    exact hwritten _

/-- **The agent is dead**: the tree is left alone, and the frame counts as a failure. -/
theorem update_of_dead (h : (m.briefed dt s).flag Keys.isDead = true) :
    m.update dt s = (.failure, { m.refreshed dt s with last := some .failure }, s) := if_pos h

/-- **It is a frame to think on**: the tree is ticked. -/
theorem update_of_thinks (halive : (m.briefed dt s).flag Keys.isDead = false)
    (hthinks : m.pace.thinksOn (m.frame dt).tick = true) :
    m.update dt s =
      let o := (m.refreshed dt s).tree.tick Node.asMachine (m.frame dt) s
      (o.1, { m.refreshed dt s with tree := o.2.1, last := some o.1 }, o.2.2) := by
  have halive : ¬ (m.briefed dt s).flag Keys.isDead = true := by
    rw [halive]
    exact Bool.false_ne_true
  exact (if_neg halive).trans (if_pos hthinks)

/-- **It is a frame to rest on**: the last status is reported again. -/
theorem update_of_rests (halive : (m.briefed dt s).flag Keys.isDead = false)
    (hrests : m.pace.thinksOn (m.frame dt).tick = false) :
    m.update dt s = (m.last.getD .running, m.refreshed dt s, s) := by
  have halive : ¬ (m.briefed dt s).flag Keys.isDead = true := by
    rw [halive]
    exact Bool.false_ne_true
  have hrests : ¬ m.pace.thinksOn (m.frame dt).tick = true := by
    rw [hrests]
    exact Bool.false_ne_true
  exact (if_neg halive).trans (if_neg hrests)

end Update

/-- An update moves the clock and changes the tree and what was reported last, and nothing else. -/
theorem exists_update (m : Mind G) (dt : Duration) (s : Stage G) :
    ∃ tree last, (m.update dt s).2.1 = { m.refreshed dt s with tree, last } := by
  unfold update
  dsimp only
  split
  · exact ⟨_, _, rfl⟩
  · split
    · exact ⟨_, _, rfl⟩
    · exact ⟨_, _, rfl⟩

/-- An update gives the mind no other agent. -/
@[simp] theorem agent_update (m : Mind G) (dt : Duration) (s : Stage G) :
    (m.update dt s).2.1.agent = m.agent := by
  obtain ⟨tree, last, h⟩ := exists_update m dt s
  rw [h]
  rfl

/-- It changes nothing about when the mind thinks. -/
@[simp] theorem pace_update (m : Mind G) (dt : Duration) (s : Stage G) :
    (m.update dt s).2.1.pace = m.pace := by
  obtain ⟨tree, last, h⟩ := exists_update m dt s
  rw [h]
  rfl

/-- It moves the clock by the length of the frame. -/
@[simp] theorem clock_update (m : Mind G) (dt : Duration) (s : Stage G) :
    (m.update dt s).2.1.clock = (m.clock.advance dt).2 := by
  obtain ⟨tree, last, h⟩ := exists_update m dt s
  rw [h]
  rfl

end Mind

/-- **One more turn at the end of a run.** -/
theorem Mind.run_concat {G : Type} [Collaborators G] (turns : List (Turn G)) (turn : Turn G)
    (m : Mind G) (s : Stage G) :
    Mind.run (turns ++ [turn]) m s =
      let r := Mind.run turns m s
      (r.1 ++ (take turn r.2).1.toList, (take turn r.2).2) :=
  runSteps_concat take turns turn (m, s)

end Instinct
