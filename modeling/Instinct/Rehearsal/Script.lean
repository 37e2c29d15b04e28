import Instinct.Rehearsal

/-! # Callbacks written as data

What an action does and what a condition asks, as values, so that a whole tree can be written down.

* **`Script`** — answers given in advance.
* **`Act`** — what an action does; **`Act.deed`** does it and writes down the status.
* **`Test`** — what a condition asks; **`Test.guard`** asks it and writes down the answer.
* **`Permit`** — what the condition of a pattern asks.
* **`Formula`** — how a value to be written is computed. -/

namespace Instinct

/-! ## Scripts -/

/-- **Answers given in advance**, one letter for each turn. -/
structure Script where
  /-- Which counter of turns the script goes by. -/
  number : Nat
  letters : List Char
  /-- Whether the script starts over at its end; otherwise its last letter stays. -/
  cycle : Bool := false
deriving Inhabited

namespace Script

/-- The letter of a turn. -/
def letter (s : Script) (turn : Nat) : Char :=
  let n := s.letters.length
  s.letters.getD (if s.cycle && n ≠ 0 then turn % n else min turn (n - 1)) 'F'

/-- The letter of the present turn. -/
def next (s : Script) (r : Rehearsal) : Char × Rehearsal :=
  let (turn, r) := r.takeTurn s.number
  (s.letter turn, r)

end Script

namespace Status

/-- The letter of a status. -/
def letter : Status → Char
  | success => 'S'
  | failure => 'F'
  | running => 'R'

/-- The status of a letter; any other letter than `S` and `F` stands for running. -/
def ofLetter (c : Char) : Status :=
  if c = 'S' then success else if c = 'F' then failure else running

end Status

/-! ## Actions -/

/-- **What an action has to do.** -/
inductive Task where
  /-- Report what a script says. -/
  | script (s : Script)
  /-- Add to an integer on the blackboard. -/
  | add (key : String) (n : Int64)
  /-- Write a slot. -/
  | put (key : String) (value : Value)
  /-- Remove a slot. -/
  | drop (key : String)
  /-- Ask things of the agent: to gain health, to be about something, to tell of an event, to say
  what it can do. -/
  | ask (heal : Option Float32) (state : Option String) (event : Option (String × Json))
      (behaviors : Bool)
  /-- Have the agent do something by itself. -/
  | perform (behavior : String)
  /-- Ask the scene for an effect. -/
  | effect (kind : String) (duration : Duration)
  /-- Ask the scene for a call back. -/
  | schedule (label : String) (delay : Duration)
  /-- Nothing. -/
  | nothing

/-- Do something only if it is there, and report a failure otherwise. -/
def Task.forEach (x : Option α) (good : Status) (b : Blackboard) (r : Rehearsal)
    (f : α → Rehearsal → Bool × Rehearsal) : Status × Blackboard × Rehearsal :=
  match x with
  | none => (.failure, b, r)
  | some a =>
    let (done, r) := f a r
    (if done then good else .failure, b, r)

/-- Where the target is: as written on the blackboard, or else as it says itself. -/
def Task.aim (b : Blackboard) (r : Rehearsal) : Option Vec2 :=
  match b.get? Keys.targetPosition with
  | some place => some place
  | none => (b.get? Keys.target).map fun t => Collaborators.targetPosition t r

/-- **Do a task.** What cannot be done fails, all else reports `good`. -/
def Task.run (good : Status) (b : Blackboard) (r : Rehearsal) :
    Task → Status × Blackboard × Rehearsal
  | script s =>
    let (c, r) := s.next r
    (.ofLetter c, b, r)
  | add key n =>
    let key : Key Int64 := ⟨key⟩
    if (b.get? key).isSome then (good, b.modify key (· + n), r) else (.failure, b, r)
  | put key value => (good, b.put key value, r)
  | drop key => if b.containsName key then (good, b.removeName key, r) else (.failure, b, r)
  | ask heal state event behaviors =>
    forEach (b.get? Keys.enemy) good b r fun a r =>
      let r := heal.elim r fun x => Collaborators.heal a x r
      let r := state.elim r fun s => Collaborators.setState a s r
      let r := event.elim r fun e => Collaborators.emitEvent a e.1 e.2 r
      let known := ",".intercalate (Collaborators.behaviors a r)
      (true, if behaviors then r.say ("behaviors " ++ known) else r)
  | perform behavior =>
    forEach (b.get? Keys.enemy) good b r fun a r =>
      Collaborators.executeBehavior a behavior (aim b r) r
  | effect kind duration =>
    forEach (b.get? Keys.scene) good b r fun s r =>
      let position := b.getD Keys.position .zero
      (true, Collaborators.spawnEffect s { kind, position, duration } r)
  | schedule label delay =>
    forEach (b.get? Keys.scene) good b r fun s r => (true, Collaborators.schedule s delay label r)
  | nothing => (good, b, r)

/-- **What an action does.** -/
structure Act where
  /-- Whether the frame is written down first. -/
  showsFrame : Bool := false
  /-- A stream whose first word in this frame is written down next. -/
  draws : Option UInt64 := none
  task : Task := .nothing
  /-- What is reported once the task is done. -/
  good : Status := .success

/-- A frame in one line. -/
def Frame.line (f : Frame) : String :=
  Text.words ("ctx" :: [f.tick.toNat, f.now.nanos, f.dt.nanos, f.seed.toNat].map Decimal.natText)

/-- **Act**, and write down the status with the title of the action. -/
def Act.deed (title : String) (a : Act) : Deed Rehearsal := fun frame b r =>
  let r := if a.showsFrame then r.say frame.line else r
  let r := a.draws.elim r fun stream =>
    r.say ("rng " ++ Decimal.natText (frame.generator stream).next64.1.toNat)
  let (status, b, r) := a.task.run a.good b r
  (status, b, r.say (title ++ "=" ++ String.ofList [status.letter]))

/-! ## Conditions -/

/-- How two values are compared. -/
inductive Comparison where
  | lt | le | gt | ge | eq

/-- Whether two things that can be ordered compare as they should. -/
def Comparison.holds {α : Type} [LT α] [DecidableLT α] [BEq α] (a b : α) : Comparison → Bool
  | lt => a < b
  | le => a < b || a == b
  | gt => b < a
  | ge => b < a || a == b
  | eq => a == b

/-- Whether two values compare as they should; values of different types never do. -/
def Comparison.holdsOf (c : Comparison) : Value → Value → Bool
  | .bool a, .bool b => c.holds a.toNat b.toNat
  | .int a, .int b => c.holds a.toInt b.toInt
  | .byte a, .byte b => c.holds a b
  | .word a, .word b => c.holds a b
  | .float a, .float b => c.holds a b
  | .text a, .text b => c.holds a b
  | .duration a, .duration b => c.holds a.nanos b.nanos
  | .vec a, .vec b => c matches .eq && a == b
  | _, _ => false

/-- **What a condition asks.** -/
inductive Test where
  | script (s : Script)
  | not (t : Test)
  | flag (key : String)
  | has (key : String)
  /-- Whether a slot compares with a value. -/
  | compare (key : String) (c : Comparison) (value : Value)
  /-- Whether the agent has less than a part of its health. -/
  | healthBelow (ratio : Float32)
  /-- Whether the target is no farther than a distance. -/
  | within (distance : Float32)
  /-- Whether a time has come. -/
  | since (time : Duration)
  | always (answer : Bool)
deriving Inhabited

namespace Test

/-- The answer to a test. -/
def answer (frame : Frame) (b : Blackboard) (r : Rehearsal) : Test → Bool × Rehearsal
  | script s =>
    let (c, r) := s.next r
    (c = 'T', r)
  | not t =>
    let (holds, r) := t.answer frame b r
    (!holds, r)
  | flag key => (b.flag ⟨key⟩, r)
  | has key => (b.containsName key, r)
  | compare key c value => ((b.value? key).any fun v => c.holdsOf v value, r)
  | healthBelow ratio => (b.getD Keys.healthRatio 1 < ratio, r)
  | within distance => ((b.get? Keys.targetDistance).any (· ≤ distance), r)
  | since time => (time ≤ frame.now, r)
  | always holds => (holds, r)

end Test

/-- Write down an answer. -/
def Rehearsal.sayAnswer (title : String) (a : Bool × Rehearsal) : Bool × Rehearsal :=
  (a.1, a.2.say (title ++ (if a.1 then "?T" else "?F")))

/-- **Ask**, and write down the answer with the title of the condition. -/
def Test.guard (title : String) (t : Test) : Guard Rehearsal := fun frame b r =>
  Rehearsal.sayAnswer title (t.answer frame b r)

/-- What a pattern may need. -/
inductive Need where
  | enemy | target | scene

/-- **What the condition of a pattern asks.** -/
inductive Permit where
  | script (s : Script)
  /-- Whether the agent has less than a part of its health. -/
  | healthBelow (ratio : Float32)
  /-- Whether the target is no farther than a distance. -/
  | within (distance : Float32)
  /-- Whether the target is farther than a distance. -/
  | beyond (distance : Float32)
  /-- Whether a time has come. -/
  | since (time : Duration)
  | has (need : Need)
  | always (answer : Bool)

namespace Permit

/-- The distance of the agent and the target, if both are there. -/
def gap (s : Situation) (r : Rehearsal) : Option Float32 := do
  let a ← s.enemy
  let t ← s.target
  return (Collaborators.position a r).distance (Collaborators.targetPosition t r)

/-- The answer to the condition of a pattern. -/
def answer (s : Situation) (r : Rehearsal) : Permit → Bool × Rehearsal
  | script c =>
    let (c, r) := c.next r
    (c = 'T', r)
  | healthBelow ratio =>
    (s.enemy.any fun a => (Collaborators.stats a r).healthRatio < ratio, r)
  | within distance => ((gap s r).any (· ≤ distance), r)
  | beyond distance => ((gap s r).any (distance < ·), r)
  | since time => (time ≤ s.frame.now, r)
  | has .enemy => (s.enemy.isSome, r)
  | has .target => (s.target.isSome, r)
  | has .scene => (s.scene.isSome, r)
  | always holds => (holds, r)

/-- **Ask**, and write down the answer with the name of the pattern. -/
def condition (name : String) (p : Permit) : Situation → Rehearsal → Bool × Rehearsal :=
  fun s r => Rehearsal.sayAnswer name (p.answer s r)

end Permit

/-! ## Values -/

/-- **How a value to be written is computed.** -/
inductive Formula where
  /-- An integer slot, zero if it is missing, with a number added. -/
  | add (key : String) (n : Int64)
  /-- A text slot, empty if it is missing. -/
  | copy (key : String)
  /-- The present time. -/
  | now

/-- The source of the values of a formula. -/
def Formula.source : Formula → ValueSource Rehearsal
  | add key n => .computed fun _ b r => (.int (b.getD ⟨key⟩ 0 + n), r)
  | copy key => .computed fun _ b r => (.text (b.getD ⟨key⟩ ""), r)
  | now => .computed fun frame _ r => (.duration frame.now, r)

end Instinct
