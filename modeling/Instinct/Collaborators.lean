import Instinct.Blackboard
import Instinct.Json

/-! # The collaborators of a tree

Trees never look into agents, targets and scenes. Actions and conditions of the game reach them by
their handles.

* **`Stats`** — the numbers that an agent shows.
* **`Effect`** — an effect that a scene is asked for.
* **`Collaborators G`** — how a game `G` answers for its agents, targets and scenes. -/

namespace Instinct

/-- **The numbers that an agent shows.** -/
structure Stats where
  health : Float32
  maxHealth : Float32
  speed : Float32
  damage : Float32
deriving DecidableEq

instance : Inhabited Stats := ⟨⟨0, 0, 0, 0⟩⟩

/-- Health as a fraction of its maximum, between zero and one; zero where the maximum is not
positive. -/
def Stats.healthRatio (s : Stats) : Float32 :=
  if s.maxHealth ≤ 0 then 0 else clampBetween 0 1 (s.health / s.maxHealth)

/-- **An effect that a scene is asked for.** -/
structure Effect where
  kind : String
  position : Vec2
  duration : Duration := .zero
deriving DecidableEq, Inhabited

/-- **How a game answers for its agents, targets and scenes.** What changes the game gives the game
back. -/
class Collaborators (G : Type) where
  stats : AgentId → G → Stats
  position : AgentId → G → Vec2
  isDead : AgentId → G → Bool
  heal : AgentId → Float32 → G → G
  emitEvent : AgentId → String → Json → G → G
  setState : AgentId → String → G → G
  /-- What the agent can do by itself. -/
  behaviors : AgentId → G → List String
  /-- Have the agent do something by itself; false if it does not know how. -/
  executeBehavior : AgentId → String → Option Vec2 → G → Bool × G
  targetPosition : TargetId → G → Vec2
  spawnEffect : SceneId → Effect → G → G
  /-- Have the scene call back after a delay. -/
  schedule : SceneId → Duration → String → G → G

end Instinct
