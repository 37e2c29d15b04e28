import Instinct.Demo.Archetype
import Instinct.Proofs.Executions
import Instinct.Proofs.SortedMaps

/-! # The enemies of the demonstration are civil

What the trees of the archetypes do to the game they do through the collaborators. So they keep
whatever the collaborators keep, leave the log of events to the library, and each drives one
repertoire of patterns, outside of every loop.

* **`Repertoire.All.ofPatterns`**, **`Repertoire.All.tune`** — what holds of patterns as they are
  written down, and is not of their priority and cooldown, holds of a tuned repertoire.
* **`Collaborators.Keep I`** — the collaborators keep what holds of the game.
* **`Archetype.orderly_brute`**, **`Archetype.orderly_archer`** — the patterns of both archetypes.
* **`Archetype.Civil`**, **`Archetype.civil_of_find`** — every archetype that can be had, under any
  tuning. -/

namespace Instinct

/-! ## (1) Repertoires as they are written down -/

namespace Repertoire

variable {N G : Type} {Q : Pattern N G → Prop} {r r' : Repertoire N G}

/-- An empty repertoire has no pattern of which anything could fail. -/
theorem all_empty : (empty : Repertoire N G).All Q := fun _ he => nomatch he

/-- Registering adds one pattern to those of its archetype and touches no other. -/
theorem All.register (h : r.All Q) {archetype : String} {p : Pattern N G} (hp : Q p)
    (hr : r.register archetype p = .ok r') : r'.All Q := by
  unfold Repertoire.register at hr
  split at hr
  · cases hr
  · obtain rfl := Except.ok.inj hr
    intro e he
    -- the list of the archetype is put in anew, with the pattern at its end
    obtain rfl | he := NameMap.Raw.mem_insertEntry e he
    · exact List.forall_mem_append.mpr ⟨fun q hq => h.of_mem hq, List.forall_mem_singleton.mpr hp⟩
    · exact h e he

/-- **What holds of patterns** holds of the repertoire that they make up. -/
theorem All.ofPatterns {archetype : String} {ps : List (Pattern N G)} (h : ∀ p ∈ ps, Q p) :
    (Repertoire.ofPatterns archetype ps).All Q := by
  unfold Repertoire.ofPatterns
  refine List.foldlRecOn ps _ all_empty fun r hr p hp => ?_
  cases hregister : r.register archetype p with
  | error e => exact hr
  | ok r' => exact hr.register (h p hp) hregister

/-- **What does not depend on priority and cooldown** still holds once a tuning is applied. -/
theorem All.tune (h : r.All Q) (hQ : ∀ o p, Q p → Q (overridden o p)) (t : Tuning) :
    (r.tune t).1.All Q := by
  unfold Repertoire.tune
  generalize t.entries = overrides
  -- the overrides are applied one after another, each to what the one before has left
  induction overrides generalizing r with
  | nil => exact h
  | cons entry rest ih =>
    obtain ⟨archetype, name, o⟩ := entry
    rw [applyOverrides]
    split
    · -- at an override for a pattern that is not there the rest is left out
      exact h
    · exact ih (h.modify (hQ o))

end Repertoire

/-! ## (2) What the collaborators keep -/

namespace Pattern

variable {N G : Type} {I : G → Prop} {p : Pattern N G}

/-- A pattern without a condition asks nothing. -/
theorem civil_of_none (hp : p.condition = none) : p.Civil I := by
  intro c hc
  rw [hp] at hc
  cases hc

/-- A pattern is civil when its condition is. -/
theorem civil_of_some {condition : Situation → G → Bool × G} (hp : p.condition = some condition)
    (h : ∀ s g, I g → I (condition s g).2) : p.Civil I := by
  intro c hc
  rw [hp] at hc
  exact Option.mem_some_iff.mp hc ▸ h

end Pattern

namespace Node

variable {G : Type} {I : G → Prop} {title : Option String}

/-- A composite does nothing to the game itself. -/
theorem civil_composite {c : Composite} {cs : List (Node G)}
    (h : ∀ c ∈ cs, c.Everywhere (Civil I)) : (composite title c cs).Everywhere (Civil I) :=
  everywhere_composite.mpr ⟨trivial, h⟩

/-- A decorator is civil with its test and its child. -/
theorem civil_decorator {d : Decorator G} {c : Node G} (hd : d.Civil I)
    (hc : c.Everywhere (Civil I)) : (decorator title d (some c)).Everywhere (Civil I) :=
  everywhere_decorator.mpr ⟨hd, fun _ hmem => Option.mem_some_iff.mp hmem ▸ hc⟩

/-- A leaf stands alone. -/
theorem civil_leaf {l : Leaf G} (hl : l.Civil I) : (leaf title l).Everywhere (Civil I) :=
  everywhere_leaf.mpr hl

/-- A name is only for the reader. -/
theorem civil_rename {n : Node G} (hn : n.Everywhere (Civil I)) (title : String) :
    (n.rename title).Everywhere (Civil I) := by
  obtain ⟨hhere, hbelow⟩ := everywhere_iff.mp hn
  cases n <;> exact everywhere_iff.mpr ⟨hhere, hbelow⟩

end Node

section

variable {G : Type} [Collaborators G]

/-- **The collaborators keep what holds of the game**, whatever they are asked to do; healing is by
a positive amount. -/
structure Collaborators.Keep (I : G → Prop) : Prop where
  heal : ∀ agent {amount : Float32} g, ¬ amount ≤ 0 → I g → I (heal agent amount g)
  emitEvent : ∀ agent kind payload g, I g → I (emitEvent agent kind payload g)
  setState : ∀ agent state g, I g → I (setState agent state g)
  executeBehavior : ∀ agent behavior place g, I g → I (executeBehavior agent behavior place g).2
  spawnEffect : ∀ scene effect g, I g → I (spawnEffect scene effect g)
  schedule : ∀ scene delay tag g, I g → I (schedule scene delay tag g)

namespace Archetype

variable {I : G → Prop} (hI : Collaborators.Keep I)

/-! ## (3) Deeds and tests -/

section Deeds

include hI

/-- Entering a state is left to the collaborators. -/
theorem civil_enter (state : String) : (Leaf.action (enter state : Deed G)).Civil I := by
  intro f b g
  unfold enter
  split
  · exact ⟨rfl, hI.setState _ _ g⟩
  · exact ⟨rfl, id⟩

/-- Moving is left to them too. -/
theorem civil_move (behavior state : String) :
    (Leaf.action (move behavior state : Deed G)).Civil I := by
  intro f b g
  unfold move
  split
  · exact ⟨rfl, fun hg => hI.executeBehavior _ _ _ _ (hI.setState _ _ g hg)⟩
  · exact ⟨rfl, id⟩

/-- **Striking** tells of the attack and shows an effect where the agent stands in a scene. -/
theorem civil_strike (pattern effect : String) (scale : Float32) :
    (Leaf.action (strike pattern effect scale : Deed G)).Civil I := by
  intro f b g
  unfold strike
  split
  -- the attack is told of in both cases, and only then comes the effect
  · have htold (agent : AgentId) (payload : Json) (hg : I g) :
        I (Collaborators.emitEvent agent "attack" payload g) := hI.emitEvent _ _ _ g hg
    dsimp only
    split
    · exact ⟨rfl, fun hg => hI.spawnEffect _ _ _ (htold _ _ hg)⟩
    · exact ⟨rfl, htold _ _⟩
  · exact ⟨rfl, id⟩

/-- Showing an effect needs a scene. -/
theorem civil_spawn (effect : String) : (Leaf.action (spawn effect : Deed G)).Civil I := by
  intro f b g
  unfold spawn
  split
  · exact ⟨rfl, hI.spawnEffect _ _ g⟩
  · exact ⟨rfl, id⟩

/-- **Drinking a potion** heals, tells of it and plans the next one. -/
theorem civil_drinkPotion : (Leaf.action (drinkPotion : Deed G)).Civil I := by
  intro f b g
  unfold drinkPotion
  split
  · exact ⟨rfl, id⟩
  · next agent _ =>
    have hhealed (hg : I g) : I (Collaborators.emitEvent agent "potion"
        (.object [("amount", .double 25)]) (Collaborators.heal agent 25 g)) :=
      hI.emitEvent _ _ _ _ (hI.heal agent g (by decide +kernel) hg)
    dsimp only
    split
    -- the next potion is planned only where there is a scene
    · exact ⟨rfl, fun hg => hI.schedule _ _ _ _ (hhealed hg)⟩
    · exact ⟨rfl, hhealed⟩

end Deeds

/-- How healthy the agent is can be asked without changing anything. -/
theorem civil_enemyBelow (ratio : Float32) :
    ∀ s (g : G), I g → I (enemyBelow ratio s g).2 := fun _ _ => id

/-- So can how far the target is. -/
theorem civil_gap (test : Float32 → Bool) : ∀ s (g : G), I g → I (gap test s g).2 := by
  intro s g hg
  unfold gap
  split
  · exact hg
  · exact hg

/-! ## (4) Patterns -/

section Patterns

include hI

/-- **A blow from close by**, as all archetypes strike it. -/
theorem civil_melee (name : String) (scale : Float32) (windup recovery : UInt64) :
    (melee name scale windup recovery : Node G).Everywhere (Node.Civil I) := by
  refine Node.civil_composite ?_
  simp only [List.forall_mem_cons]
  exact ⟨Node.civil_leaf (civil_enter hI _), Node.civil_leaf trivial,
    Node.civil_leaf (civil_strike hI _ _ _), Node.civil_leaf (civil_enter hI _),
    Node.civil_leaf trivial, List.forall_mem_nil _⟩

/-- The charge of a brute. -/
theorem civil_charge : (charge : Node G).Everywhere (Node.Civil I) := by
  refine Node.civil_composite ?_
  simp only [List.forall_mem_cons]
  exact ⟨Node.civil_leaf (civil_enter hI _),
    Node.civil_decorator trivial
      (Node.civil_decorator trivial (Node.civil_leaf (civil_move hI _ _))),
    Node.civil_leaf (civil_strike hI _ _ _), List.forall_mem_nil _⟩

/-- The roar of a brute: one of two voices, and rage from then on. -/
theorem civil_roar : (roar : Node G).Everywhere (Node.Civil I) := by
  have hvoices : (Node.randomSelector firstStream [
      .action "roar_low" (spawn "roar_low"),
      .action "roar_high" (spawn "roar_high")] : Node G).Everywhere (Node.Civil I) := by
    refine Node.civil_composite ?_
    simp only [List.forall_mem_cons]
    exact ⟨Node.civil_leaf (civil_spawn hI _), Node.civil_leaf (civil_spawn hI _),
      List.forall_mem_nil _⟩
  have hrage : (Leaf.setValue "enraged" (.constant (.bool true)) : Leaf G).Civil I :=
    ⟨by decide, trivial⟩
  refine Node.civil_composite ?_
  simp only [List.forall_mem_cons]
  exact ⟨Node.civil_leaf (civil_enter hI _), hvoices, Node.civil_leaf hrage,
    Node.civil_leaf trivial, List.forall_mem_nil _⟩

/-- The volley of an archer: three arrows at once. -/
theorem civil_volley : (volley : Node G).Everywhere (Node.Civil I) := by
  have harrows : (Node.parallel .requireMajority [
      .action "arrow_left" (strike "volley" "arrow" 0.6),
      .action "arrow_center" (strike "volley" "arrow" 0.6),
      .action "arrow_right" (strike "volley" "arrow" 0.6)] : Node G).Everywhere
        (Node.Civil I) := by
    refine Node.civil_composite ?_
    simp only [List.forall_mem_cons]
    exact ⟨Node.civil_leaf (civil_strike hI _ _ _), Node.civil_leaf (civil_strike hI _ _ _),
      Node.civil_leaf (civil_strike hI _ _ _), List.forall_mem_nil _⟩
  refine Node.civil_composite ?_
  simp only [List.forall_mem_cons]
  exact ⟨Node.civil_leaf (civil_enter hI _), Node.civil_leaf trivial, harrows,
    List.forall_mem_nil _⟩

/-- One arrow, well aimed. -/
theorem civil_aimedShot : (aimedShot : Node G).Everywhere (Node.Civil I) := by
  refine Node.civil_composite ?_
  simp only [List.forall_mem_cons]
  exact ⟨Node.civil_leaf (civil_enter hI _),
    Node.civil_decorator trivial (Node.civil_leaf trivial),
    Node.civil_decorator trivial (Node.civil_leaf (civil_strike hI _ _ _)), List.forall_mem_nil _⟩

/-- One arrow at short notice, and a step back. -/
theorem civil_quickShot : (quickShot : Node G).Everywhere (Node.Civil I) := by
  have hstep : (Node.sequence [
      .action "step_back" (move "retreat" "kiting"),
      .action "snap_shot" (strike "quick_shot" "arrow" 0.8)] : Node G).Everywhere
        (Node.Civil I) := by
    refine Node.civil_composite ?_
    simp only [List.forall_mem_cons]
    exact ⟨Node.civil_leaf (civil_move hI _ _), Node.civil_leaf (civil_strike hI _ _ _),
      List.forall_mem_nil _⟩
  refine Node.civil_composite ?_
  simp only [List.forall_mem_cons]
  exact ⟨Node.civil_leaf (civil_strike hI _ _ _), hstep, List.forall_mem_nil _⟩

/-- **The patterns of the brute.** -/
theorem orderly_brute : ∀ p ∈ (brutePatterns : List (Pattern (Node G) G)), p.Orderly I := by
  unfold brutePatterns
  simp only [List.forall_mem_cons]
  exact ⟨⟨Pattern.civil_of_some rfl (civil_enemyBelow _), civil_roar hI⟩,
    ⟨Pattern.civil_of_some rfl (civil_gap _), civil_melee hI _ _ _ _⟩,
    ⟨Pattern.civil_of_some rfl (civil_gap _), civil_melee hI _ _ _ _⟩,
    ⟨Pattern.civil_of_some rfl (civil_gap _), civil_charge hI⟩, List.forall_mem_nil _⟩

/-- **The patterns of the archer.** -/
theorem orderly_archer : ∀ p ∈ (archerPatterns : List (Pattern (Node G) G)), p.Orderly I := by
  unfold archerPatterns
  simp only [List.forall_mem_cons]
  exact ⟨⟨Pattern.civil_of_none rfl, civil_volley hI⟩,
    ⟨Pattern.civil_of_some rfl (civil_gap _), civil_aimedShot hI⟩,
    ⟨Pattern.civil_of_none rfl, civil_quickShot hI⟩, List.forall_mem_nil _⟩

end Patterns

/-! ## (5) Archetypes -/

/-- **What every archetype is made of**: a tree that is civil throughout and drives one repertoire,
for an agent that has a health to be healed up to. -/
structure Civil (I : G → Prop) (a : Archetype G) : Prop where
  root : a.tree.root.Everywhere (Node.Civil I)
  drives : a.tree.root.drives = 1
  maxHealth : ¬ a.stats.maxHealth ≤ 0

section Archetypes

variable {repertoire : Repertoire (Node G) G} (hr : repertoire.All (Pattern.Orderly I))

include hI hr

/-- **The tree of a brute** is civil: its patterns are, and what stands around them strikes no blow.
-/
theorem civil_brute : (brute repertoire).Civil I where
  root := by
    have hengage : (Node.sequence [
        .condition "target_in_reach" (targetWithin 6),
        .patternsOf "brute" repertoire]).Everywhere (Node.Civil I) := by
      refine Node.civil_composite ?_
      simp only [List.forall_mem_cons]
      exact ⟨Node.civil_leaf fun _ _ _ => id, Node.everywhere_civil_patterns.mpr hr,
        List.forall_mem_nil _⟩
    have hclose : (Node.sequence [
        .condition "has_target" targetSeen,
        .action "approach" (move "approach" "chasing")]).Everywhere (Node.Civil I) := by
      refine Node.civil_composite ?_
      simp only [List.forall_mem_cons]
      exact ⟨Node.civil_leaf fun _ _ _ => id, Node.civil_leaf (civil_move hI _ _),
        List.forall_mem_nil _⟩
    refine Node.civil_composite ?_
    simp only [List.forall_mem_cons]
    exact ⟨Node.civil_rename hengage _, Node.civil_rename hclose _, Node.civil_leaf trivial,
      List.forall_mem_nil _⟩
  drives := rfl
  maxHealth := (by decide +kernel : ¬ (220 : Float32) ≤ 0)

/-- **The tree of an archer** is civil; the potion stands in a branch with a test in front of it. -/
theorem civil_archer : (archer repertoire).Civil I where
  root := by
    have hflee : (Node.sequence [
        .action "retreat" (move "retreat" "fleeing"),
        .succeeder (some (.cooldown (.ofSeconds 4) (some
          (.action "drink_potion" drinkPotion))))]).Everywhere (Node.Civil I) := by
      refine Node.civil_composite ?_
      simp only [List.forall_mem_cons]
      exact ⟨Node.civil_leaf (civil_move hI _ _),
        Node.civil_decorator trivial
          (Node.civil_decorator trivial (Node.civil_leaf (civil_drinkPotion hI))),
        List.forall_mem_nil _⟩
    have hengage : (Node.sequence [
        .condition "in_range" (targetWithin 12),
        .patternsOf "archer" repertoire]).Everywhere (Node.Civil I) := by
      refine Node.civil_composite ?_
      simp only [List.forall_mem_cons]
      exact ⟨Node.civil_leaf fun _ _ _ => id, Node.everywhere_civil_patterns.mpr hr,
        List.forall_mem_nil _⟩
    refine Node.civil_composite ?_
    simp only [List.forall_mem_cons]
    exact ⟨Node.civil_decorator (fun _ _ _ => id) (Node.civil_rename hflee _),
      Node.civil_rename hengage _, Node.civil_leaf (civil_move hI _ _), List.forall_mem_nil _⟩
  drives := rfl
  maxHealth := (by decide +kernel : ¬ (90 : Float32) ≤ 0)

end Archetypes

include hI in
/-- The archetypes by name: their patterns are orderly, and over orderly patterns they are civil. -/
theorem civil_of_plan {name : String} {ps : List (Pattern (Node G) G)}
    {make : Repertoire (Node G) G → Archetype G} (h : plan? name = some (ps, make)) :
    (∀ p ∈ ps, p.Orderly I) ∧ ∀ r : Repertoire (Node G) G, r.All (Pattern.Orderly I) →
      (make r).Civil I := by
  unfold plan? at h
  split at h
  · obtain ⟨rfl, rfl⟩ := Prod.mk.inj (Option.some.inj h)
    exact ⟨orderly_brute hI, fun r hr => civil_brute hI hr⟩
  · split at h
    · obtain ⟨rfl, rfl⟩ := Prod.mk.inj (Option.some.inj h)
      exact ⟨orderly_archer hI, fun r hr => civil_archer hI hr⟩
    · cases h

include hI in
/-- **Every archetype that can be had** is made so, under any tuning. -/
theorem civil_of_find {name : String} {tuning : Tuning} {a : Archetype G}
    (h : find name tuning = .ok a) : a.Civil I := by
  unfold find at h
  cases hplan : (plan? name : Option (_ × (_ → Archetype G))) with
  | none =>
    rw [hplan] at h
    cases h
  | some plan =>
    obtain ⟨ps, make⟩ := plan
    obtain ⟨hps, hmake⟩ := civil_of_plan hI hplan
    -- overrides change neither trees nor conditions
    have htuned : ((Repertoire.ofPatterns name ps).tune (tuning.only name)).1.All
        (Pattern.Orderly I) := (Repertoire.All.ofPatterns hps).tune (fun _ _ => id) _
    rw [hplan] at h
    dsimp only at h
    split at h
    · cases h
    · next repertoire hrepertoire =>
      rw [hrepertoire] at htuned
      obtain rfl := Except.ok.inj h
      exact hmake repertoire htuned

end Archetype

end

end Instinct
