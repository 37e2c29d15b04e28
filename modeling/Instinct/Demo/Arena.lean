import Instinct.Demo.Fighter

/-! # The arena: one fighter against one target

The game of the demonstration. There is one agent, one target, which does not move, and one scene,
so handles are not looked at. -/

namespace Instinct

/-- **The game of the demonstration.** -/
structure Arena where
  fighter : Fighter
  /-- Where the target stands. -/
  target : Vec2
  tally : EffectTally := {}

namespace Arena

/-- Change the fighter. -/
def mapFighter (a : Arena) (f : Fighter → Fighter) : Arena := { a with fighter := f a.fighter }

/-- Change the tally of effects. -/
def mapTally (a : Arena) (f : EffectTally → EffectTally) : Arena := { a with tally := f a.tally }

/-- The handle of the fighter. -/
def fighterId : AgentId := ⟨0⟩

/-- The handle of the target. -/
def targetId : TargetId := ⟨0⟩

/-- The handle of the scene. -/
def sceneId : SceneId := ⟨0⟩

instance : Collaborators Arena where
  stats _ a := a.fighter.stats
  position _ a := a.fighter.position
  isDead _ a := a.fighter.isDead
  heal _ amount a := a.mapFighter (·.heal amount)
  emitEvent _ kind _ a := a.mapFighter (·.tell kind)
  setState _ state a := a.mapFighter (·.enter state)
  behaviors _ _ := Fighter.behaviors
  executeBehavior _ behavior place a :=
    let (done, fighter) := a.fighter.execute behavior place
    (done, { a with fighter })
  targetPosition _ a := a.target
  spawnEffect _ e a := a.mapTally (·.spawn e)
  schedule _ _ _ a := a.mapTally (·.schedule)

end Arena

end Instinct
