import Instinct.Proofs.Calls
import Mathlib.Data.List.DropRight

/-! # The logbook of a decorator

A decorator ticks its child, perhaps several times within one tick of its own, and resets it now and
then. A child that keeps a log of both shows how they follow one another, over a whole run.

* **`Use`** — one use of a child; **`Tidy`** — whenever the child was done, it was reset next.
* **`Machine.logged`** — machines that keep a log of what is done to them.
* **`Decorator.uses`** — what is done to the child within one tick of a decorator.
* **`Decorator.beats`** — a run, with what each step of it did to the child.
* **`spell`** — the ticks of a run since the decorator was last done or reset.
* **`Decorator.beats_keeps`**, **`Decorator.spell_keeps`** — what every step keeps of the history
  of a run, and of the ticks in the present spell, holds after every run. -/

namespace Instinct

variable {N G : Type} {m : Machine N G}

/-! ## (1) What is done to a child -/

/-- **One use of a child.** -/
inductive Use (N G : Type) where
  /-- It is ticked. -/
  | tick (call : Call N G)
  /-- It is reset. -/
  | reset

namespace Use

/-- What the child reported; nothing if it was reset. -/
def report? (m : Machine N G) : Use N G → Option Status
  | tick call => some (call.outcome m).status
  | reset => none

/-- Whether the child was left running. -/
def running (m : Machine N G) (a : Use N G) : Bool := a.report? m = some .running

/-- A tick leaves the child running if it reports so. -/
@[simp] theorem running_tick (call : Call N G) :
    (tick call).running m = (call.outcome m).status.isRunning := by
  simp only [running, report?, Option.some.injEq]
  cases (call.outcome m).status <;> rfl

/-- A reset leaves nothing running. -/
@[simp] theorem running_reset : (reset : Use N G).running m = false := by simp [running, report?]

/-- **What a child reported** in the course of what was done to it. -/
def reports (m : Machine N G) (uses : List (Use N G)) : List Status := uses.filterMap (report? m)

/-- Nothing was done, and nothing reported. -/
@[simp] theorem reports_nil : reports m [] = [] := rfl

/-- Every tick reports something. -/
@[simp] theorem reports_tick (call : Call N G) (uses : List (Use N G)) :
    reports m (tick call :: uses) = (call.outcome m).status :: reports m uses := rfl

/-- A reset reports nothing. -/
@[simp] theorem reports_reset (uses : List (Use N G)) :
    reports m (reset :: uses) = reports m uses := rfl

/-- What is reported in two parts is reported in all. -/
@[simp] theorem reports_append (uses uses' : List (Use N G)) :
    reports m (uses ++ uses') = reports m uses ++ reports m uses' := List.filterMap_append

end Use

/-- **Whenever the child was done, it was reset next.** -/
def Tidy (m : Machine N G) : List (Use N G) → Prop
  | [] => True
  | .reset :: uses => Tidy m uses
  | .tick call :: uses =>
    ((call.outcome m).status.isDone = true → uses.head? = some .reset) ∧ Tidy m uses

/-- **Tidy uses may follow one another.** -/
theorem Tidy.append {uses uses' : List (Use N G)} (h : Tidy m uses) (h' : Tidy m uses') :
    Tidy m (uses ++ uses') := by
  induction uses with
  | nil => exact h'
  | cons a uses ih =>
    cases a with
    | reset => exact ih h
    | tick call =>
      obtain ⟨hnext, hrest⟩ := h
      refine ⟨fun hdone => ?_, ih hrest⟩
      -- a reset that was due in the first part is still the next thing done
      show (uses ++ uses').head? = some .reset
      rw [List.head?_append, hnext hdone]
      rfl

/-! ## (2) Machines that keep a log -/

namespace Machine

/-- **Machines that keep a log** of what is done to them, oldest first. -/
def logged (m : Machine N G) : Machine (N × List (Use N G)) G where
  tick f n w := (m.tick f n.1 w).map fun n' => (n', n.2 ++ [.tick ⟨f, n.1, w⟩])
  reset n := (m.reset n.1, n.2 ++ [.reset])
  onReset n := m.onReset n.1
  name n := m.name n.1

/-- A machine with an empty log. -/
def unlogged (n : N) : N × List (Use N G) := (n, [])

/-- What was written into the log of a child that may be there. -/
def logOf (child : Option (N × List (Use N G))) : List (Use N G) := child.toList.flatMap (·.2)

/-- The log of a child that is there. -/
@[simp] theorem logOf_some (c : N × List (Use N G)) : logOf (some c) = c.2 :=
  List.flatMap_singleton _ _

/-- A tick is written into the log. -/
theorem tick_logged (m : Machine N G) (f : Frame) (n : N × List (Use N G)) (w : World G) :
    let call : Call N G := ⟨f, n.1, w⟩
    m.logged.tick f n w =
      ⟨(call.outcome m).status, ((call.outcome m).node, n.2 ++ [.tick call]),
        (call.outcome m).world⟩ := rfl

/-- So is a reset. -/
@[simp] theorem snd_resetIn_logged (n : N × List (Use N G)) (w : World G) :
    (m.logged.resetIn n w).1.2 = n.2 ++ [.reset] := rfl

/-- **Keeping a log changes nothing.** -/
theorem embeds_logged (m : Machine N G) : m.logged.Embeds m Prod.fst where
  tick _ _ _ := rfl
  reset _ := rfl
  onReset _ := rfl

end Machine

/-! ## (3) Ticks and runs of decorators -/

namespace Decorator

variable {f : Frame} {w : World G}

/-- **What is done to the child** within one tick of a decorator. -/
def uses (m : Machine N G) (f : Frame) (d : Decorator G) (child : Option N) (w : World G) :
    List (Use N G) :=
  Machine.logOf (d.tick m.logged f (child.map Machine.unlogged) w).node.2

end Decorator

/-- **One thing done to a decorator** within a run. -/
structure Beat (N G : Type) where
  /-- The frame of a tick and what it reported; nothing for a reset. -/
  tick : Option (Frame × Status)
  /-- What was done to the child. -/
  uses : List (Use N G)

namespace Beat

/-- The time of a tick. -/
def time? (b : Beat N G) : Option Duration := b.tick.map (·.1.now)

/-- What a tick reported. -/
def status? (b : Beat N G) : Option Status := b.tick.map (·.2)

/-- Whether this was a tick that left the decorator running. -/
def running (b : Beat N G) : Bool := b.status? = some .running

end Beat

/-- **The ticks since the decorator was last done or reset**: as many of the last ones as left it
running. -/
def spell (beats : List (Beat N G)) : List (Beat N G) := beats.rtakeWhile Beat.running

/-- One more tick goes on with the spell if it is running, and else ends it. -/
theorem spell_concat (beats : List (Beat N G)) (b : Beat N G) :
    spell (beats ++ [b]) = if b.status? = some .running then spell beats ++ [b] else [] := by
  rw [spell, List.rtakeWhile_concat]
  simp only [Beat.running, decide_eq_true_eq]
  rfl

namespace Decorator

variable {f : Frame} {w : World G}

/-- A tick of a decorator, as one thing done within a run. -/
def tickBeat (m : Machine N G) (f : Frame) (s : Decorator G × Option N) (w : World G) :
    Beat N G where
  tick := some (f, (m.decorator.tick f s w).status)
  uses := s.1.uses m f s.2 w

/-- A reset of a decorator. -/
def resetBeat (m : Machine N G) (s : Decorator G × Option N) : Beat N G where
  tick := none
  uses := Machine.logOf (m.logged.decorator.reset (s.1, s.2.map Machine.unlogged)).2

/-- A tick reports what it reports. -/
@[simp] theorem status?_tickBeat (s : Decorator G × Option N) :
    (tickBeat m f s w).status? = some (m.decorator.tick f s w).status := rfl

/-- A reset reports nothing. -/
@[simp] theorem status?_resetBeat (s : Decorator G × Option N) :
    (resetBeat m s).status? = none := rfl

/-- One thing done to a decorator, with what that does to the child. -/
def beat (m : Machine N G) : Move G → (Decorator G × Option N) × World G →
    Option (Beat N G) × (Decorator G × Option N) × World G
  | .tick f, (s, w) =>
    let o := m.decorator.tick f s w
    (some (tickBeat m f s w), o.node, o.world)
  | .reset, (s, w) => (some (resetBeat m s), m.decorator.resetIn s w)
  | .meanwhile change, (s, w) => (none, s, change w)

/-- **The run of a decorator**, with what each step of it does to the child. -/
def beats (m : Machine N G) (moves : List (Move G)) (s : Decorator G × Option N) (w : World G) :
    List (Beat N G) × (Decorator G × Option N) × World G := runSteps (beat m) moves (s, w)

/-- The run is the one of the decorator. -/
theorem run_eq_beats (m : Machine N G) (moves : List (Move G)) (s : Decorator G × Option N)
    (w : World G) :
    m.decorator.run moves s w =
      ((beats m moves s w).1.filterMap Beat.status?, (beats m moves s w).2) := by
  refine runSteps_filterMap (fun a s => ?_) moves (s, w)
  cases a <;> rfl

/-- **A run keeps what every step keeps of its history.** -/
theorem beats_keeps {I : List (Beat N G) → Decorator G × Option N → Prop}
    (htick : ∀ f past s w, I past s → I (past ++ [tickBeat m f s w]) (m.decorator.tick f s w).node)
    (hreset : ∀ past s, I past s → I (past ++ [resetBeat m s]) (m.decorator.reset s))
    {s : Decorator G × Option N} (hs : I [] s) (moves : List (Move G)) (w : World G) :
    I (beats m moves s w).1 (beats m moves s w).2.1 := by
  -- the history says nothing of the world, so the invariant leaves it out
  let J (past : List (Beat N G)) (r : (Decorator G × Option N) × World G) : Prop := I past r.1
  have hstep : ∀ a ∈ moves, ∀ past r, J past r →
      J (past ++ (beat m a r).1.toList) (beat m a r).2 := by
    rintro a - past ⟨s, w⟩ hI
    cases a with
    | tick f => exact htick f past s w hI
    | reset => exact hreset past s hI
    -- changes from outside are not written down
    | meanwhile change =>
      show I (past ++ []) s
      rwa [List.append_nil]
  have hstart : J [] (s, w) := hs
  exact runSteps_history hstep hstart

/-- **A run keeps of its present spell** what every step does: a tick that is running goes on with
it, and whatever else is done begins a new one. -/
theorem spell_keeps {I : List (Beat N G) → Decorator G × Option N → Prop}
    (hrunning : ∀ f past s w, I past s → (m.decorator.tick f s w).status = .running →
      I (past ++ [tickBeat m f s w]) (m.decorator.tick f s w).node)
    (hdone : ∀ f past s w, I past s → (m.decorator.tick f s w).status ≠ .running →
      I [] (m.decorator.tick f s w).node)
    (hreset : ∀ past s, I past s → I [] (m.decorator.reset s))
    {s : Decorator G × Option N} (hs : I [] s) (moves : List (Move G)) (w : World G) :
    I (spell (beats m moves s w).1) (beats m moves s w).2.1 := by
  refine beats_keeps (I := fun past s => I (spell past) s) ?_ ?_ hs moves w
  · intro f past s w hI
    -- a running tick goes on with the spell, any other one ends it
    rw [spell_concat, status?_tickBeat]
    simp only [Option.some.injEq]
    by_cases hstatus : (m.decorator.tick f s w).status = .running
    · rw [if_pos hstatus]
      exact hrunning f _ s w hI hstatus
    · rw [if_neg hstatus]
      exact hdone f _ s w hI hstatus
  · intro past s hI
    rw [spell_concat, status?_resetBeat, if_neg (by simp)]
    exact hreset _ s hI

end Decorator

end Instinct
