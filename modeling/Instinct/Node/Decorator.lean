import Instinct.Machine

/-! # Decorators: nodes around one child

A decorator reshapes what its child reports or decides when the child is ticked at all. Its own
memory is a `Decorator G`; the child, if it has one already, is kept beside it.

* **`Decorator.tick`** — one tick; without a child a decorator fails, the succeeder apart.
* **`repeatChild`**, **`retryChild`** — the two loops that may tick a child several times. -/

namespace Instinct

/-- A test of the present situation. Testing may touch the game but not the blackboard. -/
abbrev Guard (G : Type) := Frame → Blackboard → G → Bool × G

/-- The largest count that a repeater without end keeps. -/
def largestCount : Nat := 4294967295

/-- **A decorator's own memory.** -/
inductive Decorator (G : Type) where
  /-- Swaps success and failure. -/
  | inverter
  /-- Ticks the child and succeeds. -/
  | succeeder
  /-- Ticks the child and fails. -/
  | failer
  /-- Runs the child to its end `times` times over, or for ever; `completed` counts the ends. -/
  | repeater (times : Option Nat) (completed : Nat)
  /-- Runs a failing child again, `attempts` times at most; `failed` counts the failures. -/
  | retry (attempts failed : Nat)
  /-- Fails a child that runs longer than `limit`; `started` is when this run began. -/
  | timeout (limit : Duration) (started : Option Duration)
  /-- Keeps the child from running for `duration` after it was done at `finished`. -/
  | cooldown (duration : Duration) (finished : Option Duration)
  /-- Runs the child only while `guard` holds. -/
  | conditional (guard : Guard G)

namespace Decorator

variable {N G : Type}

/-- A repeater that has not run yet; a negative count means for ever. -/
def repeating (times : Int32) : Decorator G :=
  repeater (if times < 0 then none else some times.toInt.toNat) 0

/-- A negative number of rounds stands for rounds without end. -/
theorem repeating_of_neg {times : Int32} (h : times < 0) :
    (repeating times : Decorator G) = repeater none 0 := by
  rw [repeating, if_pos h]

/-- Any other number of rounds is taken as it is. -/
theorem repeating_of_nonneg {times : Int32} (h : 0 ≤ times) :
    (repeating times : Decorator G) = repeater (some times.toInt.toNat) 0 := by
  rw [repeating, if_neg (Int32.not_lt.mpr h)]

/-- A retry that has not run yet; at least one attempt is made. -/
def retrying (attempts : UInt32) : Decorator G := retry (max attempts.toNat 1) 0

/-- What a decorator is. -/
def kind : Decorator G → Kind
  | inverter => .inverter
  | succeeder => .succeeder
  | failer => .failer
  | repeater _ _ => .repeater
  | retry _ _ => .retry
  | timeout _ _ => .timeout
  | cooldown _ _ => .cooldown
  | conditional _ => .conditional

/-- The memory after a reset. When the child of a cooldown was last done is not forgotten. -/
def reset : Decorator G → Decorator G
  | repeater times _ => repeater times 0
  | retry attempts _ => retry attempts 0
  | timeout limit _ => timeout limit none
  | d => d

/-- A second reset changes nothing. -/
@[simp] theorem reset_reset (d : Decorator G) : d.reset.reset = d.reset := by cases d <;> rfl

/-- Forget when the child of a cooldown was last done. -/
def clear : Decorator G → Decorator G
  | cooldown duration _ => cooldown duration none
  | d => d

/-- Whether a child done at `finished` is still kept from running at `now`. -/
def coolingDown (duration : Duration) (finished : Option Duration) (now : Duration) : Bool :=
  match finished with
  | some at' => now - at' < duration
  | none => false

/-- **Run a child to its end `left` more times**, each time from a reset; `completed` counts on.
Ends early with a child that is still running. -/
def repeatChild (m : Machine N G) (frame : Frame) :
    (left completed : Nat) → N → World G → Status × Nat × N × World G
  | 0, _, c, w => (.success, 0, c, w)
  | left + 1, completed, c, w =>
    let o := m.tick frame c w
    if o.status.isRunning then (.running, completed, o.node, o.world)
    else
      let (c, w) := m.resetIn o.node o.world
      repeatChild m frame left (completed + 1) c w

/-- **Run a failing child again, `left` times at most**; `failed` counts on. -/
def retryChild (m : Machine N G) (frame : Frame) :
    (left failed : Nat) → N → World G → Status × Nat × N × World G
  | 0, _, c, w => (.failure, 0, c, w)
  | left + 1, failed, c, w =>
    let o := m.tick frame c w
    match o.status with
    | .running => (.running, failed, o.node, o.world)
    | .success =>
      let (c, w) := m.resetIn o.node o.world
      (.success, 0, c, w)
    | .failure =>
      let (c, w) := m.resetIn o.node o.world
      retryChild m frame left (failed + 1) c w

/-- One tick of a decorator around a child. -/
def tickAround (m : Machine N G) (frame : Frame) (d : Decorator G) (c : N) (w : World G) :
    Outcome (Decorator G × N) G :=
  match d with
  | inverter =>
    let o := m.tick frame c w
    ⟨o.status.invert, (inverter, o.node), o.world⟩
  | succeeder =>
    let o := m.tick frame c w
    ⟨.success, (succeeder, o.node), o.world⟩
  | failer =>
    let o := m.tick frame c w
    ⟨.failure, (failer, o.node), o.world⟩
  | repeater none completed =>
    let o := m.tick frame c w
    if o.status.isRunning then ⟨.running, (repeater none completed, o.node), o.world⟩
    else
      let (c, w) := m.resetIn o.node o.world
      ⟨.running, (repeater none (min (completed + 1) largestCount), c), w⟩
  | repeater (some times) completed =>
    let (status, completed, c, w) := repeatChild m frame (times - completed) completed c w
    ⟨status, (repeater (some times) completed, c), w⟩
  | retry attempts failed =>
    let (status, failed, c, w) := retryChild m frame (attempts - failed) failed c w
    ⟨status, (retry attempts failed, c), w⟩
  | timeout limit started =>
    -- the first tick of a run starts the clock, and is never late
    let start := started.getD frame.now
    if limit < frame.elapsedSince start then
      let (c, w) := m.resetIn c w
      ⟨.failure, (timeout limit none, c), w⟩
    else
      let o := m.tick frame c w
      ⟨o.status, (timeout limit (if o.status.isDone then none else some start), o.node), o.world⟩
  | cooldown duration finished =>
    if coolingDown duration finished frame.now then ⟨.failure, (cooldown duration finished, c), w⟩
    else
      let o := m.tick frame c w
      ⟨o.status,
        (cooldown duration (if o.status.isDone then some frame.now else finished), o.node),
        o.world⟩
  | conditional guard =>
    let (holds, game) := guard frame w.board w.game
    let w := w.mapGame fun _ => game
    if holds then
      let o := m.tick frame c w
      ⟨o.status, (conditional guard, o.node), o.world⟩
    else
      let (c, w) := m.resetIn c w
      ⟨.failure, (conditional guard, c), w⟩

/-- What a decorator reports without a child. -/
def statusAlone : Decorator G → Status
  | succeeder => .success
  | _ => .failure

/-- **One tick of a decorator.** Without a child nothing happens, and no guard is asked. -/
def tick (m : Machine N G) (frame : Frame) (d : Decorator G) (child : Option N) (w : World G) :
    Outcome (Decorator G × Option N) G :=
  match child with
  | some c => (tickAround m frame d c w).map fun r => (r.1, some r.2)
  | none => ⟨d.statusAlone, (d, none), w⟩

end Decorator

end Instinct
