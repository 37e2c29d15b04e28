import Instinct.Node.Kinds
import Instinct.Proofs.Calls
import Instinct.Proofs.Settling.Kinds

/-! # A cooldown over a whole run

A cooldown stamps the time when its child was done and keeps the child from running for a while. The
same stamp is asked when the child is started afresh and when it goes on; still no child is stopped
in the midst of a run, as the time to wait was over when that run began.

* **`Decorator.tick_held`**, **`Decorator.tick_free`** — the two things that a tick can come to.
* **`ends`** — when a child was done, by a record of its ticks.
* **`Paced`** — what holds between two ticks; **`Paced.tick`** — one more tick of the child.
* **`Decorator.cooldown_gate`** — whole runs. -/

namespace Instinct

variable {N G : Type} {m : Machine N G} {duration t : Duration} {past : List (Call N G)}
  {b : Call N G}

/-! ## (1) One tick -/

section Tick

variable {stamp : Option Duration} {f : Frame} {w : World G}

/-- **While it is cooling down** a cooldown fails, and nothing happens. -/
theorem Decorator.tick_held (hcool : coolingDown duration stamp f.now = true) (c : N)
    (w : World G) :
    (cooldown duration stamp).tick m f (some c) w =
      ⟨.failure, (cooldown duration stamp, some c), w⟩ := by
  rw [tick, tickAround, if_pos hcool]
  rfl

/-- **Otherwise it ticks its child**, and stamps the time if that is done. -/
theorem Decorator.tick_free (hfree : ¬ coolingDown duration stamp f.now = true) (c : N)
    (w : World G) :
    (cooldown duration stamp).tick m f (some c) w =
      ⟨(m.tick f c w).status,
        (cooldown duration (if (m.tick f c w).status.isDone then some f.now else stamp),
          some (m.tick f c w).node),
        (m.tick f c w).world⟩ := by
  rw [tick, tickAround, if_neg hfree]
  rfl

/-- The child is ticked unless the cooldown is cooling down. -/
theorem Decorator.calls_cooldown (duration : Duration) (stamp : Option Duration) (c : N) :
    (cooldown duration stamp).calls m f (some c) w =
      if coolingDown duration stamp f.now then [] else [⟨f, c, w⟩] := by
  rw [calls, Option.map_some]
  by_cases hcool : coolingDown duration stamp f.now = true
  · rw [tick_held hcool, if_pos hcool]
    rfl
  · rw [tick_free hcool, if_neg hcool]
    rfl

/-- It is cooling down for as long as less than the duration has passed since the stamp. -/
theorem Decorator.not_coolingDown_iff {now : Duration} :
    ¬ coolingDown duration stamp now = true ↔ ∀ last ∈ stamp, duration ≤ now - last := by
  cases stamp with
  | none => simp [coolingDown]
  | some last =>
    simp only [coolingDown, decide_eq_true_eq, Duration.lt_iff, Duration.le_iff, Nat.not_lt,
      Option.mem_some_iff, forall_eq']

end Tick

/-! ## (2) When the child was done -/

/-- **When a child was done**, by a record of its ticks. -/
def ends (m : Machine N G) (past : List (Call N G)) : List Duration :=
  (past.filter fun b => (b.outcome m).status.isDone).map (·.frame.now)

/-- A call that is done adds its time to the times of the ends. -/
theorem ends_concat (past : List (Call N G)) (b : Call N G) :
    ends m (past ++ [b]) =
      if (b.outcome m).status.isDone then ends m past ++ [b.frame.now] else ends m past := by
  cases hdone : (b.outcome m).status.isDone <;> simp [ends, hdone]

/-- The last time is that of the last tick that was done. -/
theorem getLast?_ends_concat (past : List (Call N G)) (b : Call N G) :
    (ends m (past ++ [b])).getLast? =
      if (b.outcome m).status.isDone then some b.frame.now else (ends m past).getLast? := by
  rw [ends_concat]
  split
  · exact List.getLast?_concat
  · rfl

/-- **What holds between two ticks**, the last of them at `t`: the child was done at times that lie
the duration apart, and if it is running it is not held back. -/
structure Paced (m : Machine N G) (duration t : Duration) (past : List (Call N G)) : Prop where
  before : ∀ u ∈ ends m past, u ≤ t
  apart : (ends m past).Pairwise fun u v => u.nanos + duration.nanos ≤ v.nanos
  resumes : ∀ b ∈ past.getLast?, (b.outcome m).status = .running →
    ¬ Decorator.coolingDown duration (ends m past).getLast? t = true

namespace Paced

/-- Before anything was called there are no ends. -/
theorem initial (m : Machine N G) (duration : Duration) : Paced m duration .zero [] where
  before := List.forall_mem_nil _
  apart := .nil
  resumes _ hb := nomatch hb

/-- As time goes by it still holds. -/
theorem later (h : Paced m duration t past) {u : Duration} (htu : t ≤ u) :
    Paced m duration u past where
  before v hv := Nat.le_trans (h.before v hv) htu
  apart := h.apart
  resumes b hb hrunning hcool :=
    h.resumes b hb hrunning (Decorator.coolingDown_of_later htu hcool)

/-- When the child is ticked, every time it was done is the duration ago. -/
theorem apart_now (h : Paced m duration t past)
    (hfree : ¬ Decorator.coolingDown duration (ends m past).getLast? t = true) :
    ∀ u ∈ ends m past, u.nanos + duration.nanos ≤ t.nanos := by
  rcases List.eq_nil_or_concat (ends m past) with hnil | ⟨before, last, hends⟩
  · rw [hnil]
    exact List.forall_mem_nil _
  · have hlast := Decorator.not_coolingDown_iff.mp hfree last (by rw [hends]; simp)
    have hpast := h.before last (by rw [hends]; simp)
    have hapart := h.apart
    rw [hends, List.concat_eq_append, List.pairwise_append] at hapart
    rw [Duration.le_iff, Duration.nanos_sub] at hlast
    rw [Duration.le_iff] at hpast
    have hnow : last.nanos + duration.nanos ≤ t.nanos := by omega
    rw [hends, List.concat_eq_append]
    refine List.forall_mem_append.mpr ⟨fun u hu => ?_, fun u hu => ?_⟩
    · -- what came before the last time was earlier still
      have hbefore := hapart.2.2 u hu last (List.mem_singleton_self _)
      omega
    · rw [List.mem_singleton.mp hu]
      exact hnow

/-- **One more tick of the child.** -/
theorem tick (h : Paced m duration b.frame.now past)
    (hfree : ¬ Decorator.coolingDown duration (ends m past).getLast? b.frame.now = true) :
    Paced m duration b.frame.now (past ++ [b]) := by
  by_cases hdone : (b.outcome m).status.isDone = true
  · -- the call is done: its end comes late enough after the ones before
    have hends : ends m (past ++ [b]) = ends m past ++ [b.frame.now] := by
      rw [ends_concat, if_pos hdone]
    refine ⟨?_, ?_, fun b' hb' hrunning => ?_⟩
    · rw [hends]
      refine List.forall_mem_append.mpr ⟨h.before, fun u hu => ?_⟩
      rw [List.mem_singleton.mp hu]
      exact Nat.le_refl _
    · rw [hends]
      -- the new end lies a whole duration behind the last one, as the gate was free
      refine List.pairwise_append.mpr ⟨h.apart, List.pairwise_singleton _ _, fun u hu v hv => ?_⟩
      rw [List.mem_singleton.mp hv]
      exact h.apart_now hfree u hu
    · rw [List.getLast?_concat] at hb'
      obtain rfl : b = b' := Option.some.inj hb'
      rw [hrunning] at hdone
      cases hdone
  · -- the call is not done: the ends stay, and the child runs on while the gate is free
    have hends : ends m (past ++ [b]) = ends m past := by
      rw [ends_concat, if_neg hdone]
    exact ⟨hends ▸ h.before, hends ▸ h.apart, fun _ _ _ => hends ▸ hfree⟩

end Paced

/-! ## (3) Whole runs -/

namespace Decorator

/-- **What is left of a cooldown and its child** after a run up to `t`: the stamp is the last time
that the child was done. -/
def Stamped (m : Machine N G) (duration t : Duration)
    (s : (Decorator G × Option (N × List (Call N G))) × World G) : Prop :=
  ∃ child past, s.1 = (cooldown duration (ends m past).getLast?, some (child, past)) ∧
    Paced m duration t past

/-- A tick keeps it so. -/
theorem Stamped.tick {s : (Decorator G × Option (N × List (Call N G))) × World G} {f : Frame}
    (h : Stamped m duration t s) (ht : t ≤ f.now) :
    Stamped m duration f.now (m.watched.decorator.make (.tick f) s).2 := by
  obtain ⟨_, w⟩ := s
  obtain ⟨child, past, rfl, hpaced⟩ := h
  have hnow := hpaced.later ht
  show Stamped m duration f.now
    (((cooldown duration (ends m past).getLast?).tick m.watched f (some (child, past)) w).node, _)
  -- the gate holds the child back, or lets it through
  by_cases hcool : coolingDown duration (ends m past).getLast? f.now = true
  · rw [tick_held hcool]
    exact ⟨child, past, rfl, hnow⟩
  · rw [tick_free hcool]
    have hpast := hnow.tick (b := ⟨f, child, w⟩) hcool
    refine ⟨(m.tick f child w).node, past ++ [⟨f, child, w⟩], ?_, hpast⟩
    rw [getLast?_ends_concat]
    rfl

/-- So does a reset, which forgets neither the stamp nor the record. -/
theorem Stamped.reset {s : (Decorator G × Option (N × List (Call N G))) × World G}
    (h : Stamped m duration t s) : Stamped m duration t (m.watched.decorator.make .reset s).2 := by
  obtain ⟨_, w⟩ := s
  obtain ⟨child, past, rfl, hpaced⟩ := h
  exact ⟨m.reset child, past, rfl, hpaced⟩

/-- **A cooldown over a whole run**, with resets at any time. Its stamp is the last time that its
child was done; resets do not touch it. The child is ticked if it was never done or at least the
duration has passed since then; otherwise the node fails, and nothing happens to the child or the
world. A child that was running when it was last ticked is ticked again. The times at which the
child was done lie the duration apart. Whether the cooldown is cooling down tells, for any time,
whether a tick at that time would tick the child. -/
theorem cooldown_gate (m : Machine N G) (duration : Duration) (c : N) (w : World G)
    {moves : List (Move G)} {frame : Frame} (hforward : Move.Forward (moves ++ [.tick frame])) :
    ∃ statuses child past w',
      m.watched.decorator.run moves (cooldown duration none, some (Machine.unrecorded c)) w =
        (statuses, (cooldown duration (ends m past).getLast?, some (child, past)), w') ∧
      m.decorator.run moves (cooldown duration none, some c) w =
        (statuses, (cooldown duration (ends m past).getLast?, some child), w') ∧
      let d := cooldown duration (ends m past).getLast?
      let free := ∀ last ∈ (ends m past).getLast?, duration ≤ frame.now - last
      (free → d.calls m frame (some child) w' = [⟨frame, child, w'⟩]) ∧
      (¬ free → d.calls m frame (some child) w' = [] ∧
        d.tick m frame (some child) w' = ⟨.failure, (d, some child), w'⟩) ∧
      (∀ b ∈ past.getLast?, (b.outcome m).status = .running → free) ∧
      ((ends m past).Pairwise fun u v => u.nanos + duration.nanos ≤ v.nanos) ∧
      ∀ f : Frame, coolingDown duration (ends m past).getLast? f.now = true ↔
        d.calls m f (some child) w' = [] := by
  have hstart : Stamped m duration .zero
      ((cooldown duration none, some (Machine.unrecorded c)), w) :=
    ⟨c, [], rfl, .initial m duration⟩
  let r := m.watched.decorator.run moves (cooldown duration none, some (Machine.unrecorded c)) w
  have hkeeps : ∃ t, t ≤ frame.now ∧ Stamped m duration t r.2 :=
    runSteps_keeps_until (fun _ _ _ h ht => h.tick ht) (fun _ _ h => h.reset)
      -- the stamp and the record of the calls are kept in step over the whole run
      (fun _ _ _ h => h) hforward hstart
  obtain ⟨t, ht, child, past, hleft, hpaced⟩ := hkeeps
  have hnow := hpaced.later ht
  have hwatched : m.decorator.run moves (cooldown duration none, some c) w =
      (r.1, (r.2.1.1, r.2.1.2.map Prod.fst), r.2.2) := run_watched m moves _ c w
  rw [hleft] at hwatched
  refine ⟨r.1, child, past, r.2.2, Prod.ext rfl (Prod.ext hleft rfl), hwatched, ?_, ?_, ?_,
    hnow.apart, ?_⟩
  · -- the gate is free, and the child is called
    intro hfree
    rw [calls_cooldown, if_neg (not_coolingDown_iff.mpr hfree)]
  · -- the gate is closed: nothing is called, and nothing changes
    intro hheld
    have hcool := Classical.not_not.mp (mt not_coolingDown_iff.mp hheld)
    rw [calls_cooldown, if_pos hcool, tick_held hcool]
    exact ⟨rfl, rfl⟩
  · exact fun b hb hrunning => not_coolingDown_iff.mp (hnow.resumes b hb hrunning)
  · intro f
    rw [calls_cooldown]
    by_cases hcool : coolingDown duration (ends m past).getLast? f.now = true
    · rw [if_pos hcool]
      exact iff_of_true hcool rfl
    · rw [if_neg hcool]
      exact iff_of_false hcool (List.cons_ne_nil _ _)

/-- A child that was done and then reset, held back a millisecond before its time. -/
theorem cooldown_gate_fixed :
    let m : Machine (Node Unit) Unit := Node.asMachine
    let c : Node Unit := .fixed .success
    let w : World Unit := ⟨.empty, { game := () }⟩
    let moves : List (Move Unit) := [.tick (.atMillis 3), .reset]
    let d := cooldown (.ofMillis 5) (some (.ofMillis 3))
    Move.Forward (moves ++ [.tick (.atMillis 7)]) ∧
      m.decorator.run moves (cooldown (.ofMillis 5) none, some c) w =
        ([.success], (d, some c), w) ∧
      d.calls m (.atMillis 7) (some c) w = [] := by
  intro m c w moves d
  have hforward : Move.Forward (moves ++ [.tick (.atMillis 7)]) := by decide
  have hrun : m.decorator.run moves (cooldown (.ofMillis 5) none, some c) w =
      -- the run is computed, and the general theorem says what its state means
      ([.success], (d, some c), w) := rfl
  obtain ⟨statuses, child, past, w', -, hrun', -, hheld, -⟩ :=
    cooldown_gate m (.ofMillis 5) c w hforward
  have hleft := hrun'.symm.trans hrun
  simp only [d, Prod.mk.injEq, cooldown.injEq, Option.some.injEq] at hleft
  obtain ⟨-, ⟨⟨-, hends⟩, rfl⟩, rfl⟩ := hleft
  rw [hends] at hheld
  exact ⟨hforward, hrun, (hheld (by decide)).1⟩

end Decorator

end Instinct
