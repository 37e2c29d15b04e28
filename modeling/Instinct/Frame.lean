import Instinct.Duration
import Instinct.Random

/-! # Frames and the clock that counts them

* **`Frame`** — all that a node may know about the present: the tick number, the simulated time,
  the time since the frame before and the seed of the run.
* **`Frame.generator`, `Frame.drawGenerator`** — the random source of one draw site in one frame.
* **`Clock`** — adds up frame lengths and hands out frames. -/

namespace Instinct

/-- **What is known about now.** Time is handed in and never read from a wall clock, so timers
behave in a test as they do in play. -/
structure Frame where
  /-- The number of the frame, from zero. -/
  tick : UInt64 := 0
  /-- The simulated time. -/
  now : Duration := .zero
  /-- The time since the frame before. -/
  dt : Duration := .zero
  /-- The seed of every random choice. -/
  seed : UInt64 := 0
deriving DecidableEq, Inhabited

namespace Frame

/-- The first tick, at the given number of milliseconds. -/
def atMillis (ms : UInt64) : Frame := { now := .ofMillis ms }

/-- The length of the frame in seconds. -/
def dtSeconds (f : Frame) : Float32 := f.dt.toFloat32

/-- The time since `earlier`, zero if that is still to come. -/
def elapsedSince (f : Frame) (earlier : Duration) : Duration := f.now - earlier

/-- The random source of one draw site in this frame. -/
def generator (f : Frame) (stream : UInt64) : Generator := ⟨deriveSeed f.seed f.tick stream⟩

/-- The random source of draw number `draw` at one draw site in this frame. -/
def drawGenerator (f : Frame) (stream draw : UInt64) : Generator :=
  f.generator (drawStream stream draw)

/-- The same frame under a salted seed, which gives a tree of its own random streams. -/
def salted (f : Frame) (salt : UInt64) : Frame := { f with seed := deriveSeed f.seed salt 0 }

end Frame

/-- **The clock of one simulation.** -/
structure Clock where
  /-- Frames handed out so far, which is the number of the next one. -/
  tick : UInt64 := 0
  /-- The simulated time so far. -/
  now : Duration := .zero
  /-- The seed handed out with each frame. -/
  seed : UInt64 := 0
deriving DecidableEq, Inhabited

namespace Clock

/-- Move on by `dt` and hand out the frame. The first frame has number zero and already contains
its own `dt`. -/
def advance (c : Clock) (dt : Duration) : Frame × Clock :=
  let now := c.now + dt
  ({ tick := c.tick, now, dt, seed := c.seed }, { c with tick := c.tick + 1, now })

end Clock

end Instinct
