import Instinct.Pattern
import Instinct.Pattern.Tuning

/-! # The repertoire of an agent

* **`Repertoire N G`** — patterns by archetype, each archetype's in the order in which they were
  added.
* **`Repertoire.register`** — add a pattern; a name stands for one pattern of its archetype.
* **`Repertoire.select`** — the eligible pattern of highest priority, the earliest added among
  equals.
* **`Repertoire.changeBest`** — the same choice, made in order to change the pattern in its place.
* **`Repertoire.execute`**, **`Repertoire.resume`** — start a pattern, which stamps its cooldown, or
  go on with it, which does not.
* **`Repertoire.tune`** — apply overrides, up to the first that names no pattern. -/

namespace Instinct

/-- **Patterns by archetype.** Cooldowns are kept with the patterns, so every agent has a repertoire
of its own. -/
structure Repertoire (N G : Type) where
  /-- The patterns of each archetype. Nodes hold repertoires and patterns hold nodes, so nothing can
  be said of the order here; adding and changing patterns keeps it (`NameMap.Raw.Sorted.insert`,
  `NameMap.Raw.Sorted.modify`). -/
  groups : NameMap.Raw (List (Pattern N G))

namespace Repertoire

variable {N G : Type}

/-- The repertoire without patterns. -/
def empty : Repertoire N G := ⟨.empty⟩

instance : Inhabited (Repertoire N G) := ⟨empty⟩

/-- The archetypes that have patterns, in order. -/
def archetypes (r : Repertoire N G) : List String := r.groups.names

/-- The patterns of an archetype in the order in which they were added. -/
def available (r : Repertoire N G) (archetype : String) : List (Pattern N G) :=
  (r.groups.get? archetype).getD []

/-- The pattern of an archetype that has a name. -/
def get? (r : Repertoire N G) (archetype name : String) : Option (Pattern N G) :=
  (r.available archetype).find? (·.name = name)

/-- The pattern of an archetype that has a name, or why there is none. -/
def find (r : Repertoire N G) (archetype name : String) : Except PatternError (Pattern N G) :=
  match r.groups.get? archetype with
  | none => .error (.unknownArchetype archetype)
  | some patterns =>
    match patterns.find? (·.name = name) with
    | none => .error (.unknownPattern archetype name)
    | some p => .ok p

/-- **Add a pattern** behind the others of its archetype, unless the name is taken. -/
def register (r : Repertoire N G) (archetype : String) (p : Pattern N G) :
    Except PatternError (Repertoire N G) :=
  match r.get? archetype p.name with
  | some _ => .error (.duplicatePattern archetype p.name)
  | none => .ok ⟨r.groups.insert archetype (r.available archetype ++ [p])⟩

/-- The patterns of one archetype, those left out whose name is taken. -/
def ofPatterns (archetype : String) (patterns : List (Pattern N G)) : Repertoire N G :=
  patterns.foldl (fun r p => (r.register archetype p).toOption.getD r) empty

/-- The list with the first pattern of a name changed. -/
def changeFirst (name : String) (f : Pattern N G → Pattern N G) :
    List (Pattern N G) → List (Pattern N G)
  | [] => []
  | p :: ps => if p.name = name then f p :: ps else p :: changeFirst name f ps

/-- Change the pattern of an archetype that has a name, if there is one. -/
def modify (r : Repertoire N G) (archetype name : String) (f : Pattern N G → Pattern N G) :
    Repertoire N G :=
  ⟨r.groups.modify archetype (changeFirst name f)⟩

/-! ## Selection -/

/-- The place and the priority of the eligible pattern of highest priority among `best` and the
patterns of a list, the first of which is at a place. Only a strictly higher priority takes the
place of an earlier pattern. -/
def bestFrom (s : Situation) :
    Nat → List (Pattern N G) → Option (Nat × Int32) → G → Option (Nat × Int32) × G
  | _, [], best, g => (best, g)
  | place, p :: ps, best, g =>
    let (eligible, g) := p.eligible s g
    if eligible && best.all (·.2 < p.priority) then
      bestFrom s (place + 1) ps (some (place, p.priority)) g
    else bestFrom s (place + 1) ps best g

/-- The place of the pattern to start among the patterns of its archetype. -/
def bestPlace (r : Repertoire N G) (archetype : String) (s : Situation) (g : G) :
    Option Nat × G :=
  let (best, g) := bestFrom s 0 (r.available archetype) none g
  (best.map (·.1), g)

/-- **The pattern to start**: the eligible one of highest priority, the earliest among equals. -/
def select (r : Repertoire N G) (archetype : String) (s : Situation) (g : G) :
    Option (Pattern N G) × G :=
  let (place, g) := r.bestPlace archetype s g
  (place.bind ((r.available archetype)[·]?), g)

/-- **Change the pattern to start**, in its place. Along with it comes the pattern as it was. -/
def changeBest (r : Repertoire N G) (archetype : String) (s : Situation)
    (f : Pattern N G → Pattern N G) (g : G) : Option (Pattern N G) × Repertoire N G × G :=
  match r.bestPlace archetype s g with
  | (none, g) => (none, r, g)
  | (some place, g) =>
    ((r.available archetype)[place]?, ⟨r.groups.modify archetype (·.modify place f)⟩, g)

/-! ## Execution -/

/-- Go on with a pattern: tick its tree once and leave its cooldown alone. -/
def resume (m : Machine N G) (r : Repertoire N G) (archetype name : String) (s : Situation)
    (stage : Stage G) : Except PatternError (Status × Repertoire N G × Stage G) :=
  match r.find archetype name with
  | .error e => .error e
  | .ok p =>
    let (status, p, stage) := p.tick m s stage
    .ok (status, r.modify archetype name fun _ => p, stage)

/-- **Start a pattern**: stamp its cooldown with the present time, then tick its tree once. The
stamp comes first, so that a pattern that ends at once is kept from the next selection too. -/
def execute (m : Machine N G) (r : Repertoire N G) (archetype name : String) (s : Situation)
    (stage : Stage G) : Except PatternError (Status × Repertoire N G × Stage G) :=
  match r.find archetype name with
  | .error e => .error e
  | .ok p =>
    let (status, p, stage) := (p.markUsed s.frame.now).tick m s stage
    .ok (status, r.modify archetype name fun _ => p, stage)

/-! ## Tuning -/

/-- The pattern with the present fields of an override in place of its own. -/
def overridden (o : Override) (p : Pattern N G) : Pattern N G :=
  { p with
    priority := o.priority.getD p.priority
    cooldown := o.cooldown.getD p.cooldown }

/-- Apply overrides one after the other, up to the first whose pattern is missing. -/
def applyOverrides : List (String × String × Override) → Repertoire N G →
    Repertoire N G × Option PatternError
  | [], r => (r, none)
  | (archetype, name, o) :: rest, r =>
    match r.find archetype name with
    | .error e => (r, some e)
    | .ok _ => applyOverrides rest (r.modify archetype name (overridden o))

/-- **Apply a tuning.** What stands before the first override without a pattern stays applied. -/
def tune (r : Repertoire N G) (t : Tuning) : Repertoire N G × Option PatternError :=
  applyOverrides t.entries r

end Repertoire

end Instinct
