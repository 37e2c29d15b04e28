import Instinct.NameMap
import Instinct.Duration

/-! # Tuning: overrides for patterns

* **`Override`** — the fields of one pattern that are to be replaced.
* **`Tuning`** — overrides by archetype and pattern name.
* **`Tuning.entries`** — all overrides, in ascending order of archetype and pattern. -/

namespace Instinct

/-- **What is to be replaced of one pattern.** An absent field stays as it is. -/
structure Override where
  priority : Option Int32 := none
  /-- The cooldown in milliseconds. -/
  cooldownMs : Option UInt64 := none
deriving DecidableEq, Inhabited

/-- The cooldown of an override. -/
def Override.cooldown (o : Override) : Option Duration := o.cooldownMs.map .ofMillis

/-- **Overrides by archetype and pattern name.** -/
structure Tuning where
  archetypes : NameMap (NameMap Override)
deriving Inhabited

namespace Tuning

/-- The tuning that changes nothing. -/
def empty : Tuning := ⟨.empty⟩

/-- Whether no pattern is named. -/
def isEmpty (t : Tuning) : Bool := t.archetypes.values.all (·.isEmpty)

/-- All overrides with their archetype and pattern, in order. -/
def entries (t : Tuning) : List (String × String × Override) :=
  t.archetypes.entries.flatMap fun a => a.2.entries.map fun p => (a.1, p.1, p.2)

/-- The overrides of one archetype only. -/
def only (t : Tuning) (archetype : String) : Tuning :=
  match t.archetypes.get? archetype with
  | some overrides => ⟨NameMap.empty.insert archetype overrides⟩
  | none => empty

end Tuning

end Instinct
