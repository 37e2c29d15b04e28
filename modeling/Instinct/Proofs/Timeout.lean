import Instinct.Proofs.Logbook
import Instinct.Proofs.Trail

/-! # The windows of a timeout

A timeout counts from the first tick after it was built, done or reset. From then on a window is
open, in which the child may run, until the timeout is done or reset. The window is known to the
timeout by the time when it was opened; what the child remembers of its run is its own. Still the
two never part: the run that the child has not finished is the one of the window.

* **`Decorator.tick_in_time`**, **`Decorator.tick_late`** — the two things that a tick can come to.
* **`opened`** — when a window was opened.
* **`unfinished_eq`** — uses in one run and steps in one spell, where each step is one use.
* **`Node.places_reset`** — a reset of a node resets all nodes of its subtree.
* **`Decorator.timeout_windows`** — whole runs. -/

namespace Instinct

variable {N G : Type} {m : Machine N G}

/-! ## (1) One tick -/

namespace Decorator

variable {limit : Duration} {started : Option Duration} {f : Frame}

/-- A timeout is late once more than the limit has passed since it was started. -/
theorem limit_lt_elapsedSince_iff {start : Duration} :
    limit < f.elapsedSince start ↔ start.nanos + limit.nanos < f.now.nanos := by
  rw [Duration.lt_iff, Frame.elapsedSince, Duration.nanos_sub]
  omega

/-- **In time** a timeout ticks its child and reports what it does. -/
theorem tick_in_time (h : f.now.nanos ≤ (started.getD f.now).nanos + limit.nanos) (c : N)
    (w : World G) :
    (timeout limit started).tick m f (some c) w =
      ⟨(m.tick f c w).status,
        (timeout limit
          (if (m.tick f c w).status = .running then some (started.getD f.now) else none),
          some (m.tick f c w).node),
        (m.tick f c w).world⟩ := by
  rw [tick, tickAround]
  dsimp only
  rw [if_neg fun hlate => Nat.not_lt.mpr h (limit_lt_elapsedSince_iff.mp hlate)]
  cases hstatus : (m.tick f c w).status <;> rfl

/-- **Later than that** it resets the child, without a tick, and fails. -/
theorem tick_late (h : (started.getD f.now).nanos + limit.nanos < f.now.nanos) (c : N)
    (w : World G) :
    (timeout limit started).tick m f (some c) w =
      ⟨.failure, (timeout limit none, some (m.reset c)), w.mapGame (m.onReset c)⟩ := by
  rw [tick, tickAround]
  dsimp only
  rw [if_pos (limit_lt_elapsedSince_iff.mpr h)]
  rfl

/-- In time the child is ticked and nothing else is done to it. -/
theorem uses_in_time (h : f.now.nanos ≤ (started.getD f.now).nanos + limit.nanos) (c : N)
    (w : World G) : (timeout limit started).uses m f (some c) w = [.tick ⟨f, c, w⟩] := by
  rw [uses, Option.map_some, tick_in_time h]
  rfl

/-- Later it is reset and nothing else. -/
theorem uses_late (h : (started.getD f.now).nanos + limit.nanos < f.now.nanos) (c : N)
    (w : World G) : (timeout limit started).uses m f (some c) w = [.reset] := by
  rw [uses, Option.map_some, tick_late h]
  rfl

end Decorator

/-! ## (2) Windows and the runs of the child -/

/-- **When a window was opened**: with the first of its ticks. -/
def opened (window : List (Beat N G)) : Option Duration := window.head?.bind Beat.time?

/-- The first tick of a window opens it, and all later ones leave it so. -/
theorem opened_concat {past : List (Beat N G)} {b : Beat N G} {t : Duration}
    (hb : b.time? = some t) :
    opened (spell past ++ [b]) = some ((opened (spell past)).getD t) := by
  cases hwindow : spell past with
  | nil => exact hb
  | cons first rest =>
    -- a window holds ticks only, so it is known when it was opened
    have hfirst : first ∈ spell past := by simp [hwindow]
    have hrunning := List.mem_rtakeWhile_imp hfirst
    simp only [Beat.running, Beat.status?, decide_eq_true_eq, Option.map_eq_some_iff] at hrunning
    obtain ⟨tick, htick, -⟩ := hrunning
    simp [opened, Beat.time?, htick]

/-- **The step did one thing to the child**, and left it running just if it was a tick that left
the decorator running. -/
def Beat.Single (m : Machine N G) (b : Beat N G) : Prop :=
  ∃ a, b.uses = [a] ∧ a.running m = b.running

/-- **The run that the child has not finished** is the one of the present spell, if every step does
one thing to the child. -/
theorem unfinished_eq {past : List (Beat N G)} (h : ∀ b ∈ past, b.Single m) :
    (past.flatMap Beat.uses).rtakeWhile (Use.running m) = (spell past).flatMap Beat.uses := by
  induction past using List.reverseRecOn with
  | nil => rfl
  | append_singleton past b ih =>
    obtain ⟨hpast, hb⟩ := List.forall_mem_append.mp h
    obtain ⟨a, huses, hsame⟩ := hb b (List.mem_singleton_self b)
    rw [List.flatMap_append, List.flatMap_singleton, huses, List.rtakeWhile_concat, hsame, spell,
      List.rtakeWhile_concat, ih hpast, spell]
    by_cases hrunning : b.running = true
    · rw [if_pos hrunning, if_pos hrunning, List.flatMap_append, List.flatMap_singleton, huses]
    · rw [if_neg hrunning, if_neg hrunning, List.flatMap_nil]

/-- In a spell of such steps each one is a tick of the child. -/
theorem Beat.Single.exists_call {past : List (Beat N G)} (h : ∀ b ∈ past, b.Single m) :
    ∀ b ∈ spell past, ∃ call, b.uses = [.tick call] := by
  intro b hb
  obtain ⟨a, huses, hsame⟩ := h b ((List.rtakeWhile_suffix _ _).subset hb)
  rw [List.mem_rtakeWhile_imp hb] at hsame
  cases a with
  | tick call => exact ⟨call, huses⟩
  | reset => simp at hsame

/-! ## (3) What a reset reaches -/

namespace Node

/-- Resetting a node resets its children. -/
theorem children_reset (n : Node G) : n.reset.children = n.children.map reset := by
  rw [reset_eq]
  cases n with
  | decorator title d child => cases child <;> rfl
  | _ => rfl

/-- **A reset resets all nodes of the subtree**, each in its place. -/
theorem places_reset (n : Node G) : n.reset.places = n.places.map (Prod.map id reset) := by
  induction n using beneath_induction with
  | step n ih =>
    rw [places_eq, places_eq n, children_reset, List.zipIdx_map, List.map_cons, List.map_flatMap,
      List.flatMap_map]
    refine congrArg (([], n.reset) :: ·) (List.flatMap_congr fun c hc => ?_)
    show c.1.reset.places.map (Prod.map (c.2 :: ·) id) = _
    rw [ih c.1 (mem_beneath_of_mem_zipIdx hc), List.map_map, List.map_map]
    rfl

end Node

/-! ## (4) Whole runs -/

namespace Decorator

variable {limit : Duration} {f : Frame}

/-- **What is left of a timeout and its child** after some steps: it knows when the present window
was opened, and every step did one thing to the child. -/
def Windowed (m : Machine N G) (limit : Duration) (past : List (Beat N G))
    (s : Decorator G × Option N) : Prop :=
  ∃ child, s = (timeout limit (opened (spell past)), some child) ∧ ∀ b ∈ past, b.Single m

/-- **A tick leaves the timeout windowed**: it opens a window, goes on with one or ends it. -/
theorem Windowed.tick {past : List (Beat N G)} {s : Decorator G × Option N}
    (h : Windowed m limit past s) (w : World G) :
    Windowed m limit (past ++ [tickBeat m f s w]) (m.decorator.tick f s w).node := by
  obtain ⟨child, rfl, hpast⟩ := h
  let start := (opened (spell past)).getD f.now
  let b := tickBeat m f (timeout limit (opened (spell past)), some child) w
  rcases Nat.lt_or_ge (start.nanos + limit.nanos) f.now.nanos with hlate | htime
  · have htick := tick_late (m := m) hlate child w
    have hstatus : b.status? = some .failure :=
      congrArg (fun o : Outcome _ G => some o.status) htick
    have hsingle : b.Single m :=
      ⟨.reset, uses_late hlate child w, by simp [Beat.running, hstatus]⟩
    refine ⟨m.reset child, ?_, List.forall_mem_append.mpr ⟨hpast, ?_⟩⟩
    · rw [spell_concat, hstatus, if_neg (by simp)]
      exact congrArg Outcome.node htick
    · intro b' hb'
      obtain rfl := List.mem_singleton.mp hb'
      exact hsingle
  · have htick := tick_in_time (m := m) htime child w
    have hstatus : b.status? = some (m.tick f child w).status :=
      congrArg (fun o : Outcome _ G => some o.status) htick
    have hsingle : b.Single m := by
      refine ⟨.tick ⟨f, child, w⟩, uses_in_time htime child w, ?_⟩
      rw [Use.running_tick, Beat.running, hstatus, Call.outcome]
      cases (m.tick f child w).status <;> rfl
    -- the window stays open as long as the child is running
    have hopened : opened (spell (past ++ [b])) =
        if (m.tick f child w).status = .running then some start else none := by
      rw [spell_concat, hstatus]
      simp only [Option.some.injEq]
      split
      · exact opened_concat rfl
      · rfl
    refine ⟨(m.tick f child w).node, ?_, List.forall_mem_append.mpr ⟨hpast, ?_⟩⟩
    · rw [hopened]
      exact congrArg Outcome.node htick
    · intro b' hb'
      obtain rfl := List.mem_singleton.mp hb'
      exact hsingle

/-- A reset ends the window. -/
theorem Windowed.reset {past : List (Beat N G)} {s : Decorator G × Option N}
    (h : Windowed m limit past s) :
    Windowed m limit (past ++ [resetBeat m s]) (m.decorator.reset s) := by
  obtain ⟨child, rfl, hpast⟩ := h
  refine ⟨m.reset child, ?_, List.forall_mem_append.mpr ⟨hpast, ?_⟩⟩
  · rw [spell_concat, status?_resetBeat, if_neg (by simp)]
    rfl
  · intro b hb
    obtain rfl := List.mem_singleton.mp hb
    exact ⟨.reset, rfl, by simp [Beat.running]⟩

/-- **A timeout over a whole run**, with resets at any time. A window is what has been ticked since
the timeout was built, done or reset, and it was opened with the first of these ticks, at `start`. A
tick in the window, or one that opens it, comes in time if no more than the limit has passed since
then. In time the child is ticked, once, and its status reported, and the window goes on just if the
child is running. The first tick that comes too late fails without a tick of the child and leaves it
reset, and with it all nodes of its subtree; the window is closed. Each tick in the window has
ticked the child once, and these are the ticks in the run that the child has not finished: those
since it was last done or reset. So no run of the child goes on from one window to another, and when
it is over no window is left open. -/
theorem timeout_windows (m : Machine N G) (limit : Duration) (c : N) (w : World G)
    (moves : List (Move G)) (frame : Frame) :
    let r := beats m moves (timeout limit none, some c) w
    let window := spell r.1
    let start := (opened window).getD frame.now
    ∃ child w', r.2 = ((timeout limit (opened window), some child), w') ∧
      m.decorator.run moves (timeout limit none, some c) w =
        (r.1.filterMap Beat.status?, (timeout limit (opened window), some child), w') ∧
      let d := timeout limit (opened window)
      (frame.now.nanos ≤ start.nanos + limit.nanos →
        let o := m.tick frame child w'
        d.uses m frame (some child) w' = [.tick ⟨frame, child, w'⟩] ∧
        d.tick m frame (some child) w' =
          ⟨o.status, (timeout limit (if o.status = .running then some start else none),
            some o.node), o.world⟩) ∧
      (start.nanos + limit.nanos < frame.now.nanos →
        d.uses m frame (some child) w' = [.reset] ∧
        d.tick m frame (some child) w' =
          ⟨.failure, (timeout limit none, some (m.reset child)), w'.mapGame (m.onReset child)⟩) ∧
      (∀ n : Node G, n.reset.places = n.places.map (Prod.map id Node.reset)) ∧
      (∀ b ∈ window, ∃ call, b.uses = [.tick call]) ∧
      (r.1.flatMap Beat.uses).rtakeWhile (Use.running m) = window.flatMap Beat.uses := by
  intro r window start
  have hleft : Windowed m limit r.1 r.2.1 :=
    beats_keeps (I := Windowed m limit) (fun _ _ _ w h => h.tick w) (fun _ _ h => h.reset)
      ⟨c, rfl, List.forall_mem_nil _⟩ moves w
  obtain ⟨child, hs, hpast⟩ := hleft
  have hr : r.2 = ((timeout limit (opened window), some child), r.2.2) := Prod.ext hs rfl
  refine ⟨child, r.2.2, hr, ?_, fun htime => ?_, fun hlate => ?_, Node.places_reset,
    Beat.Single.exists_call hpast, unfinished_eq hpast⟩
  · -- the run and its history leave the same decorator and child
    rw [← hr]
    exact run_eq_beats m moves _ w
  · exact ⟨uses_in_time htime child _, tick_in_time htime child _⟩
  · exact ⟨uses_late hlate child _, tick_late hlate child _⟩

end Decorator

end Instinct
