import Instinct.Proofs.Selection
import Instinct.Proofs.Settling

/-! # What stays true throughout a node

* **`Node.Kept`**, **`Node.everywhere_tick`** — what one layer of nodes keeps whatever is below, a
  tick and a reset keep throughout a node; **`Node.everywhere_run`** — and so does a whole run.
* **`Node.reset_reset`** — a reset after another one does nothing.
* **`Node.Unshared`**, **`Node.onReset_of_unshared`** — nodes whose resets leave the game alone. -/

namespace Instinct

/-- A reset of a leaf that drives patterns does nothing where none is in progress. -/
theorem Selection.reset_of_idle {N G : Type} {m : Machine N G} {sel : Selection N G}
    (h : sel.running = none) : sel.reset m = sel := by
  unfold reset
  rw [h]

namespace Node

open Coupling

variable {G : Type} {p : Node G → Prop} {n n' : Node G}

/-! ## Throughout a node -/

/-- **What one layer keeps**, whatever the nodes below do. -/
structure Kept (p : Node G → Prop) : Prop where
  tick : ∀ m f w {n}, p n → p (tickLayer m f n w).node
  reset : ∀ m {n}, p n → p (resetLayer m n)

/-- The same node on both sides, with `p` throughout. -/
def SameWith (p : Node G → Prop) (n n' : Node G) : Prop := n.Everywhere p ∧ n = n'

/-- Nodes are such one level up if they are layers over such nodes. -/
theorem sameWith_iff (k : Nat) :
    Upto (SameWith p) (k + 1) n n' ↔
      p n ∧ (exact : Coupling G).Layered (Upto (SameWith p) k) n n' := by
  rw [layered_upto]
  constructor
  · rintro ⟨hlevels, ⟨hn, hbelow⟩, rfl⟩
    exact ⟨hn, hlevels, (layered_exact_iff.mpr rfl).and hbelow⟩
  · rintro ⟨hn, hlevels, hlayer⟩
    refine ⟨hlevels, ⟨hn, fun c hc => ?_⟩, layered_exact_iff.mp (hlayer.imp fun _ _ h => h.2)⟩
    obtain ⟨c', hc'⟩ := exists_of_mem hlayer.beneath hc
    exact hc'.1

/-- What one layer keeps, nodes of any number of levels keep throughout. -/
theorem steps_sameWith (hp : Kept p) (k : Nat) :
    exact.Steps (Upto (SameWith p) k) (asMachine : Machine (Node G) G) asMachine := by
  -- the coupling of a node with itself takes care of the nodes below, layer by layer
  induction k with
  | zero => exact .upto_zero
  | succ k ih =>
    have hlayer := ih.layer
    rw [← asMachine_eq] at hlayer
    refine ⟨fun {f f' n n' w w'} hf hn hw => ?_, fun {n n'} hn => ?_, fun hn => ?_, fun hn => ?_⟩
    · obtain ⟨hhere, hn⟩ := (sameWith_iff k).mp hn
      have ho := hlayer.tick hf hn hw
      have hkept : p (n.tick f w).node := tick_eq f n w ▸ hp.tick asMachine f w hhere
      exact ⟨ho.status, (sameWith_iff k).mpr ⟨hkept, ho.node⟩, ho.world⟩
    · obtain ⟨hhere, hn⟩ := (sameWith_iff k).mp hn
      have hkept : p n.reset := reset_eq n ▸ hp.reset asMachine hhere
      exact (sameWith_iff k).mpr ⟨hkept, hlayer.reset hn⟩
    · exact hlayer.onReset ((sameWith_iff k).mp hn).2
    · exact hlayer.name ((sameWith_iff k).mp hn).2

/-- **A tick keeps throughout a node what one layer keeps.** -/
theorem everywhere_tick (hp : Kept p) (h : n.Everywhere p) (f : Frame) (w : World G) :
    (n.tick f w).node.Everywhere p := by
  have hf : (exact : Coupling G).Frames f f := level_exact.frames_iff.mpr rfl
  have hw : exact.Worlds w w := worlds_later_iff.mpr rfl
  have hn : Upto (SameWith p) n.levels n n := ⟨Nat.le_refl _, h, rfl⟩
  exact ((steps_sameWith hp n.levels).tick hf hn hw).node.2.1

/-- **So does a reset.** -/
theorem everywhere_reset_of_kept (hp : Kept p) (h : n.Everywhere p) : n.reset.Everywhere p := by
  have hn : Upto (SameWith p) n.levels n n := ⟨Nat.le_refl _, h, rfl⟩
  exact ((steps_sameWith hp n.levels).reset hn).2.1

/-- **So does a whole run.** -/
theorem everywhere_run (hp : Kept p) (h : n.Everywhere p) (moves : List (Move G)) (w : World G) :
    (asMachine.run moves n w).2.1.Everywhere p := by
  refine runSteps_invariant (I := fun s : Node G × World G => s.1.Everywhere p) ?_ h
  rintro a - ⟨n, w⟩ hn
  cases a with
  | tick frame => exact everywhere_tick hp hn frame w
  | reset => exact everywhere_reset_of_kept hp hn
  | meanwhile change => exact hn

/-! ## Resets -/

/-- **A reset after another one does nothing.** -/
@[simp] theorem reset_reset (n : Node G) : n.reset.reset = n.reset := by
  induction n using beneath_induction with
  | step n ih =>
    have hall {cs : List (Node G)} (hcs : ∀ c ∈ cs, c ∈ n.beneath) :
        (cs.map reset).map reset = cs.map reset := by
      rw [List.map_map]
      -- the children are right below the node, and reset twice is reset once there
      exact List.map_congr_left fun c hc => ih c (hcs c hc)
    rw [reset_eq n, reset_eq]
    cases n with
    | composite title c cs =>
      rw [resetLayer, resetLayer, c.reset_reset]
      exact congrArg (composite title c.reset) (hall fun _ hc => hc)
    | decorator title d child =>
      rw [resetLayer, resetLayer, d.reset_reset]
      cases child with
      | none => rfl
      | some c =>
        have hc : c.reset.reset = c.reset := ih c (List.mem_singleton_self c)
        exact congrArg (fun c => decorator title d.reset (some c)) hc
    | leaf title l => rw [resetLayer, resetLayer, l.reset_reset]
    | patterns title s =>
      rw [resetLayer, resetLayer, Selection.reset_of_idle Selection.running_reset]
    | custom c cs => exact congrArg (custom c) (hall fun _ hc => hc)

/-! ## Resets that leave the game alone -/

/-- **A node whose own reset leaves the game alone.** Only nodes of the game's own making do
otherwise. -/
def Unshared : Node G → Prop
  | custom c _ => ∀ g, c.onReset g = g
  | _ => True

/-- Ticks and resets keep the make of a node of the game's own. -/
theorem kept_unshared : Kept (Unshared : Node G → Prop) where
  tick m f w n hn := by cases n <;> exact hn
  reset m n hn := by cases n <;> exact hn

/-- **Resets of such nodes leave the game alone.** -/
theorem onReset_of_unshared {n : Node G} (h : n.Everywhere Unshared) (g : G) : n.onReset g = g := by
  induction n using beneath_induction generalizing g with
  | step n ih =>
    obtain ⟨hn, hbelow⟩ := h
    have hall : ∀ c ∈ n.beneath, ∀ g, c.onReset g = g := fun c hc => ih c hc (hbelow c hc)
    rw [onReset_eq]
    cases n with
    | composite title c cs => exact Machine.onResetAll_of_same hall g
    | decorator title d child =>
      cases child with
      | none => rfl
      | some c => exact hall c (List.mem_singleton_self c) g
    | leaf title l => rfl
    | patterns title s =>
      rw [onResetLayer, Selection.onReset]
      cases hbusy : s.running.bind (s.repertoire.get? s.archetype) with
      | none => rfl
      | some p =>
        -- the pattern in progress is one of those below
        obtain ⟨name, -, hp⟩ := Option.bind_eq_some_iff.mp hbusy
        exact Repertoire.root_of_find hall (Repertoire.find_eq_ok hp) g
    | custom c cs =>
      rw [onResetLayer, hn]
      exact Machine.onResetAll_of_same hall g

end Node

end Instinct
