/-! # Spans of simulated time

Simulated time is counted in nanoseconds and never runs past a fixed end, `Duration.longest`.

* **`Duration`** — a number of nanoseconds below the end of time; the bound is part of the type.
* **`+` and `-`** — saturating: a sum stops at `Duration.longest`, a difference stops at zero.
* **`Duration.seconds`, `Duration.subsecond`** — whole seconds and the nanoseconds beyond them, the
  form in which a span is written down. -/

namespace Instinct

/-- The nanoseconds in one second. -/
def nanosPerSecond : Nat := 1000000000

/-- The nanoseconds of the longest span: `2 ^ 64 - 1` seconds and `999999999` nanoseconds. -/
def longestNanos : Nat := 18446744073709551615999999999

/-- **A span of simulated time**, in nanoseconds. -/
structure Duration where
  /-- The length in nanoseconds. -/
  nanos : Nat
  /-- No span reaches past the end of time. -/
  nanos_le : nanos ≤ longestNanos := by decide
deriving DecidableEq

namespace Duration

/-- A duration is told by its nanoseconds. -/
@[ext] theorem ext {a b : Duration} (h : a.nanos = b.nanos) : a = b := by
  cases a; cases b; cases h; rfl

/-- The empty span. -/
def zero : Duration := { nanos := 0 }

/-- The longest span there is. -/
def longest : Duration := { nanos := longestNanos }

/-- The span of `n` nanoseconds, cut at the end of time. -/
def ofNanos (n : Nat) : Duration := ⟨min n longestNanos, Nat.min_le_right _ _⟩

instance : Inhabited Duration := ⟨zero⟩

instance : Add Duration := ⟨fun a b => ofNanos (a.nanos + b.nanos)⟩

instance : Sub Duration :=
  ⟨fun a b => ⟨a.nanos - b.nanos, Nat.le_trans (Nat.sub_le _ _) a.nanos_le⟩⟩

instance : LE Duration := ⟨fun a b => a.nanos ≤ b.nanos⟩

instance : LT Duration := ⟨fun a b => a.nanos < b.nanos⟩

instance (a b : Duration) : Decidable (a ≤ b) := inferInstanceAs (Decidable (a.nanos ≤ b.nanos))

instance (a b : Duration) : Decidable (a < b) := inferInstanceAs (Decidable (a.nanos < b.nanos))

/-- No time at all has no nanoseconds. -/
@[simp] theorem nanos_zero : zero.nanos = 0 := rfl

/-- The longest duration has all the nanoseconds that a duration can have. -/
@[simp] theorem nanos_longest : longest.nanos = longestNanos := rfl

/-- A number of nanoseconds that is too large becomes the longest duration. -/
@[simp] theorem nanos_ofNanos (n : Nat) : (ofNanos n).nanos = min n longestNanos := rfl

/-- A sum stops at the end of time. -/
@[simp] theorem nanos_add (a b : Duration) :
    (a + b).nanos = min (a.nanos + b.nanos) longestNanos := rfl

/-- A difference stops at zero. -/
@[simp] theorem nanos_sub (a b : Duration) : (a - b).nanos = a.nanos - b.nanos := rfl

/-- Durations are ordered as their nanoseconds are. -/
theorem le_iff (a b : Duration) : a ≤ b ↔ a.nanos ≤ b.nanos := Iff.rfl

/-- Durations are strictly ordered as their nanoseconds are. -/
theorem lt_iff (a b : Duration) : a < b ↔ a.nanos < b.nanos := Iff.rfl

/-- A span given in milliseconds. Every 64-bit count of milliseconds fits. -/
def ofMillis (ms : UInt64) : Duration := ofNanos (ms.toNat * 1000000)

/-- A span given in seconds. Every 64-bit count of seconds fits. -/
def ofSeconds (s : UInt64) : Duration := ofNanos (s.toNat * nanosPerSecond)

/-- The whole seconds of a span. -/
def seconds (d : Duration) : Nat := d.nanos / nanosPerSecond

/-- The nanoseconds beyond the whole seconds. -/
def subsecond (d : Duration) : Nat := d.nanos % nanosPerSecond

/-- The whole milliseconds of a span. -/
def millis (d : Duration) : Nat := d.nanos / 1000000

/-- The span of `s` seconds and `n` further nanoseconds, which may carry into the seconds; nothing
if the seconds then no longer fit into 64 bits. -/
def ofParts? (s : UInt64) (n : UInt32) : Option Duration :=
  let total := s.toNat * nanosPerSecond + n.toNat
  if h : total ≤ longestNanos then some ⟨total, h⟩ else none

/-- **Seconds as a single-precision number**: the seconds and the fraction are rounded apart and
then added. -/
def toFloat32 (d : Duration) : Float32 :=
  (UInt64.ofNat d.seconds).toFloat32 + (UInt32.ofNat d.subsecond).toFloat32 / 1000000000

end Duration

end Instinct
