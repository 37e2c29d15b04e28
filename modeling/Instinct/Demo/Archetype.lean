import Instinct.Node.Kinds
import Instinct.Mind
import Instinct.Text.Quoted

/-! # The enemies of the demonstration: what they do

Each archetype is a tree with a repertoire of attack patterns. The trees act on any game.

* **`Archetype.find`** — the archetype of a name with a tuning applied, or why it cannot be had.
* **`brute`**, **`archer`** — the two archetypes. -/

namespace Instinct

/-- **What a kind of enemy is made of.** -/
structure Archetype (G : Type) where
  stats : Stats
  tree : Tree (Node G)

/-- **Why an archetype cannot be had.** -/
inductive ArchetypeError where
  /-- There is none of that name. -/
  | unknown (name : String)
  /-- The tuning does not fit. -/
  | tuning (name : String) (cause : PatternError)
deriving DecidableEq

namespace Archetype

/-- The names of the archetypes. -/
def names : List String := ["brute", "archer"]

section

variable {G : Type} [Collaborators G]

/-! ## What the trees do and ask -/

/-- Have the agent be about something else. -/
def enter (state : String) : Deed G := fun _ b g =>
  match b.get? Keys.enemy with
  | some agent => (.success, b, Collaborators.setState agent state g)
  | none => (.failure, b, g)

/-- Where the target is: as written on the blackboard, or else as it says itself. -/
def aim (b : Blackboard) (g : G) : Option Vec2 :=
  match b.get? Keys.targetPosition with
  | some place => some place
  | none => (b.get? Keys.target).map fun t => Collaborators.targetPosition t g

/-- Have the agent move with respect to the target. -/
def move (behavior state : String) : Deed G := fun _ b g =>
  match b.get? Keys.enemy, aim b g with
  | some agent, some place =>
    let g := Collaborators.setState agent state g
    let (done, g) := Collaborators.executeBehavior agent behavior (some place) g
    (.ofBool done, b, g)
  | _, _ => (.failure, b, g)

/-- What is told of an attack. -/
def attackReport (pattern : String) (damage : Float32) (tick : UInt64) : Json :=
  .object [("damage", .widened damage), ("pattern", .text pattern), ("tick", .word tick)]

/-- Have the agent strike at the target, with an effect where it stands. -/
def strike (pattern effect : String) (scale : Float32) : Deed G := fun frame b g =>
  match b.get? Keys.enemy, b.get? Keys.target with
  | some agent, some target =>
    let place := Collaborators.targetPosition target g
    let damage := (Collaborators.stats agent g).damage * scale
    let g := Collaborators.emitEvent agent "attack" (attackReport pattern damage frame.tick) g
    match b.get? Keys.scene with
    | some scene =>
      let e : Effect := { kind := effect, position := place, duration := .ofMillis 300 }
      (.success, b, Collaborators.spawnEffect scene e g)
    | none => (.success, b, g)
  | _, _ => (.failure, b, g)

/-- Ask for an effect where the agent is. -/
def spawn (effect : String) : Deed G := fun _ b g =>
  match b.get? Keys.enemy, b.get? Keys.scene with
  | some agent, some scene =>
    let e : Effect := { kind := effect, position := Collaborators.position agent g }
    (.success, b, Collaborators.spawnEffect scene e g)
  | _, _ => (.failure, b, g)

/-- Have the agent drink a potion. -/
def drinkPotion : Deed G := fun _ b g =>
  match b.get? Keys.enemy with
  | none => (.failure, b, g)
  | some agent =>
    let g := Collaborators.heal agent 25 g
    let g := Collaborators.emitEvent agent "potion" (.object [("amount", .double 25)]) g
    match b.get? Keys.scene with
    | some scene => (.success, b, Collaborators.schedule scene (.ofMillis 500) "potion_glow_fade" g)
    | none => (.success, b, g)

/-- Whether the target is no farther than a distance. -/
def targetWithin (distance : Float32) : Guard G := fun _ b g =>
  ((b.get? Keys.targetDistance).any (· ≤ distance), g)

/-- Whether the target's place is known. -/
def targetSeen : Guard G := fun _ b g => (b.contains Keys.targetPosition, g)

/-- Whether the agent has less than a part of its health. -/
def healthBelow (ratio : Float32) : Guard G := fun _ b g => (b.getD Keys.healthRatio 1 < ratio, g)

/-- Whether a pattern's agent has less than a part of its health. -/
def enemyBelow (ratio : Float32) : Situation → G → Bool × G := fun s g =>
  (s.enemy.any fun agent => (Collaborators.stats agent g).healthRatio < ratio, g)

/-- Whether the distance of a pattern's agent and target satisfies a test. -/
def gap (test : Float32 → Bool) : Situation → G → Bool × G := fun s g =>
  match s.enemy, s.target with
  | some agent, some target =>
    (test ((Collaborators.position agent g).distance (Collaborators.targetPosition target g)), g)
  | _, _ => (false, g)

/-! ## The brute -/

/-- The stream of the first random choice of a tree. -/
def firstStream : UInt64 := deriveSeed 0 0 1

/-- Wind up, hit and recover. -/
def melee (name : String) (scale : Float32) (windup recovery : UInt64) : Node G :=
  .sequence [
    .action "windup" (enter "winding_up"),
    .wait (.ofMillis windup),
    .action name (strike name "impact" scale),
    .action "recover" (enter "recovering"),
    .wait (.ofMillis recovery)]

/-- Three bounds towards the target and a blow. -/
def charge : Node G :=
  .sequence [
    .action "brace" (enter "charging"),
    .timeout (.ofMillis 1500) (some
      (.repeater 3 (some (.action "lunge" (move "approach" "charging"))))),
    .action "ram" (strike "charge" "dust" 1.2)]

/-- A roar in one of two voices. -/
def roar : Node G :=
  .sequence [
    .action "roar" (enter "roaring"),
    .randomSelector firstStream [
      .action "roar_low" (spawn "roar_low"),
      .action "roar_high" (spawn "roar_high")],
    .setValue "enraged" (.constant (.bool true)),
    .wait (.ofMillis 800)]

/-- The attack patterns of the brute. -/
def brutePatterns : List (Pattern (Node G) G) := [
  { name := "roar", tree := { root := roar }, priority := 9, cooldown := .ofSeconds 10,
    condition := some (enemyBelow 0.5) },
  { name := "slam", tree := { root := melee "slam" 1.6 600 500 }, priority := 8,
    cooldown := .ofSeconds 3, condition := some (gap (· ≤ 2.5)) },
  { name := "swipe", tree := { root := melee "swipe" 1.0 250 250 }, priority := 6,
    cooldown := .ofSeconds 1, condition := some (gap (· ≤ 2.5)) },
  { name := "charge", tree := { root := charge }, priority := 4, cooldown := .ofMillis 2500,
    condition := some (gap (2.5 < ·)) }]

/-- **The tree of the brute**: attack what is in reach, or else close in. -/
def bruteRoot (repertoire : Repertoire (Node G) G) : Node G :=
  (Node.selector [
    (Node.sequence [
      .condition "target_in_reach" (targetWithin 6),
      .patternsOf "brute" repertoire]).rename "engage",
    (Node.sequence [
      .condition "has_target" targetSeen,
      .action "approach" (move "approach" "chasing")]).rename "close_in",
    .log "brute has nothing to do" .debug]).rename "brute"

/-! ## The archer -/

/-- Three arrows, of which two have to fly. -/
def volley : Node G :=
  .sequence [
    .action "nock" (enter "nocking"),
    .wait (.ofMillis 400),
    .parallel .requireMajority [
      .action "arrow_left" (strike "volley" "arrow" 0.6),
      .action "arrow_center" (strike "volley" "arrow" 0.6),
      .action "arrow_right" (strike "volley" "arrow" 0.6)]]

/-- Take aim and shoot. -/
def aimedShot : Node G :=
  .sequence [
    .action "aim" (enter "aiming"),
    .timeout (.ofMillis 1200) (some (.wait (.ofMillis 900))),
    .retry 2 (some (.action "release" (strike "aimed_shot" "arrow_trail" 2)))]

/-- Shoot at once, at times with a step back. -/
def quickShot : Node G :=
  .weightedSelector (some [3, 1]) firstStream [
    .action "snap_shot" (strike "quick_shot" "arrow" 0.8),
    .sequence [
      .action "step_back" (move "retreat" "kiting"),
      .action "snap_shot" (strike "quick_shot" "arrow" 0.8)]]

/-- The attack patterns of the archer. -/
def archerPatterns : List (Pattern (Node G) G) := [
  { name := "volley", tree := { root := volley }, priority := 7, cooldown := .ofSeconds 4 },
  { name := "aimed_shot", tree := { root := aimedShot }, priority := 5, cooldown := .ofMillis 1500,
    condition := some (gap (4 ≤ ·)) },
  { name := "quick_shot", tree := { root := quickShot }, priority := 3,
    cooldown := .ofMillis 600 }]

/-- **The tree of the archer**: flee when wounded, attack what is in range, or else advance. -/
def archerRoot (repertoire : Repertoire (Node G) G) : Node G :=
  (Node.selector [
    .conditional "wounded" (healthBelow 0.3) (some
      ((Node.sequence [
        .action "retreat" (move "retreat" "fleeing"),
        .succeeder (some (.cooldown (.ofSeconds 4) (some
          (.action "drink_potion" drinkPotion))))]).rename "flee")),
    (Node.sequence [
      .condition "in_range" (targetWithin 12),
      .patternsOf "archer" repertoire]).rename "engage",
    .action "approach" (move "approach" "advancing")]).rename "archer"

/-! ## Archetypes by name -/

/-- The brute over a repertoire. -/
def brute (repertoire : Repertoire (Node G) G) : Archetype G where
  stats := { health := 220, maxHealth := 220, speed := 2.5, damage := 18 }
  tree := { root := bruteRoot repertoire }

/-- The archer over a repertoire. -/
def archer (repertoire : Repertoire (Node G) G) : Archetype G where
  stats := { health := 90, maxHealth := 90, speed := 3.5, damage := 9 }
  tree := { root := archerRoot repertoire }

/-- The patterns of an archetype and what it is made of once they are tuned. -/
def plan? (name : String) :
    Option (List (Pattern (Node G) G) × (Repertoire (Node G) G → Archetype G)) :=
  if name = "brute" then some (brutePatterns, brute)
  else if name = "archer" then some (archerPatterns, archer)
  else none

/-- **The archetype of a name with a tuning applied.** Of the tuning only the part for this
archetype counts. -/
def find (name : String) (tuning : Tuning) : Except ArchetypeError (Archetype G) :=
  match plan? name with
  | none => .error (.unknown name)
  | some (patterns, make) =>
    match (Repertoire.ofPatterns name patterns).tune (tuning.only name) with
    | (_, some e) => .error (.tuning name e)
    | (repertoire, none) => .ok (make repertoire)

end

end Archetype

/-- The error in words, followed by its cause if it has one. -/
def ArchetypeError.messages : ArchetypeError → List String
  | unknown name =>
    [s!"unknown archetype `{name}`; expected one of " ++ Text.quotedList Archetype.names]
  | tuning name cause => [s!"applying tuning to `{name}`", cause.message]

end Instinct
