import Instinct.Node
import Instinct.Text.Quoted

/-! # Values at a glance

One line of text for a value, for whoever looks into a running program: the fields that matter, with
their names. -/

namespace Instinct

/-- A condition in words. -/
def Text.bool (b : Bool) : String := if b then "true" else "false"

/-- A blackboard at a glance: the names of its slots. -/
def Blackboard.glance (b : Blackboard) : String :=
  Text.record "Blackboard" [("keys", Text.quotedList b.names)] false

/-- A tree at a glance. -/
def Tree.glance {G : Type} (t : Tree (Node G)) : String :=
  Text.record "BehaviorTree" [
    ("root", Text.quoted t.root.name),
    ("last", Text.optional Status.title t.last),
    ("ticks", Decimal.natText t.ticks.toNat)] false

/-- A frame at a glance. -/
def Frame.glance (f : Frame) : String :=
  Text.record "TickContext" [
    ("tick", Decimal.natText f.tick.toNat),
    ("now", f.now.text),
    ("dt", f.dt.text),
    ("seed", Decimal.natText f.seed.toNat)] false

/-- A situation at a glance. -/
def Situation.glance (s : Situation) : String :=
  Text.record "PatternContext" [
    ("tick", s.frame.glance),
    ("enemy", Text.bool s.enemy.isSome),
    ("target", Text.bool s.target.isSome),
    ("scene", Text.bool s.scene.isSome)] false

/-- A pattern at a glance. -/
def Pattern.glance {N G : Type} (p : Pattern N G) : String :=
  Text.record "AttackPattern" [
    ("name", Text.quoted p.name),
    ("priority", Decimal.intText p.priority.toInt),
    ("cooldown", p.cooldown.text),
    ("last_used", Text.optional Duration.text p.lastUsed)] true

end Instinct
