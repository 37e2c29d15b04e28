import Instinct.Node.Kinds
import Instinct.Proofs.Clean
import Instinct.Proofs.Notices

/-! # What composites leave behind when they are done

Sequences, selectors and parallels reset all their children when they are done, so they are clean
whatever the children are. The random selectors only let go of the chosen child: they are clean if
the child is, and a child that reports a status of its own while what is below it is running is not.

* **`Node.clean_reset`** — a reset leaves a node clean, in whatever state it was.
* **`Node.clean_of_concluded`** — composites that are done and clean.
* **`Node.random_selectors_not_clean`** — random selectors that are done and not clean. -/

namespace Instinct

namespace Node

variable {G : Type}

/-! ## Resets -/

/-- A reset reaches the nodes below, one by one. -/
theorem beneath_reset {n : Node G} (h : n.Patternless) : n.reset.beneath = n.beneath.map reset := by
  rw [reset_eq]
  cases n with
  | decorator title d child => cases child <;> rfl
  | patterns title s => exact h.elim
  | _ => rfl

/-- What every reset makes true of a node, a reset makes true throughout it. -/
theorem everywhere_reset {p : Node G → Prop} (hp : ∀ n : Node G, n.Patternless → p n.reset)
    {n : Node G} (h : n.Everywhere Patternless) : n.reset.Everywhere p := by
  induction n using beneath_induction with
  | step n ih =>
    obtain ⟨hn, hbelow⟩ := h
    refine ⟨hp n hn, ?_⟩
    rw [beneath_reset hn]
    exact List.forall_mem_map.mpr fun c hc => ih c hc (hbelow c hc)

/-- **A reset leaves a node clean**, in whatever state it was, unless there are leaves below that
drive patterns. -/
theorem clean_reset {n : Node G} (h : n.Everywhere Patternless) : n.reset.Clean := by
  refine everywhere_reset (fun n hn => ?_) h
  rw [reset_eq]
  cases n with
  | composite title c cs => exact c.idle_reset
  | decorator title d child => exact d.idle_reset
  | leaf title l => exact l.idle_reset
  | patterns title s => exact hn.elim
  | custom c cs => exact trivial

/-- A reset puts no leaf that drives patterns anywhere. -/
theorem patternless_reset {n : Node G} (h : n.Everywhere Patternless) :
    n.reset.Everywhere Patternless := by
  refine everywhere_reset (fun n hn => ?_) h
  rw [reset_eq]
  cases n with
  | patterns title s => exact hn
  | _ => exact trivial

/-! ## Conclusions -/

/-- The loops over children keep them free of leaves that drive patterns. -/
theorem settles_patternless : (asMachine : Machine (Node G) G).Settles
    (fun _ n => n.Everywhere Patternless) (fun _ => True) where
  keep w hn _ := patternless_tick hn _ w
  done _ _ _ _ := trivial
  reset hn := patternless_reset hn
  clean _ := trivial
  later hn _ := hn

section Composites

variable {title : Option String} {f : Frame} {cs : List (Node G)} {w : World G}

/-- A composite that concludes is clean. -/
theorem clean_conclude (c : Composite) (hcs : ∀ ch ∈ cs, ch.Everywhere Patternless)
    (status : Status) (w : World G) :
    (composite title (c.conclude asMachine cs status w).node.1
      (c.conclude asMachine cs status w).node.2).Clean := by
  refine ⟨c.idle_reset, ?_⟩
  show ∀ ch ∈ cs.map reset, ch.Clean
  exact List.forall_mem_map.mpr fun ch hch => clean_reset (hcs ch hch)

/-- Children tried in order are all reset when the last one is done with. -/
theorem clean_tickInOrder {make : Nat → Composite} {goOn : Status} (cursor : Nat)
    (hcs : ∀ ch ∈ cs, ch.Everywhere Patternless) {o : Outcome (Composite × List (Node G)) G}
    (ho : Composite.tickInOrder asMachine make goOn f cursor cs w = o) (hgo : goOn ≠ .running)
    (hdone : o.status ≠ .running) : (composite title o.node.1 o.node.2).Clean := by
  obtain ⟨hkeep, -⟩ := settles_patternless.walkFrom (Nat.le_refl f.now.nanos) hgo cursor hcs
    (allBut_of_all (fun _ _ => trivial) cursor) w
  subst ho
  unfold Composite.tickInOrder at hdone ⊢
  dsimp only at hdone ⊢
  split at hdone
  · -- a child is still running, and the composite is not done
    exact absurd rfl hdone
  · next hstatus =>
    rw [if_neg hstatus]
    exact clean_conclude _ hkeep _ _

/-- Children ticked all at once are all reset when the tally is in. -/
theorem clean_tickParallel {policy : Policy} (hcs : ∀ ch ∈ cs, ch.Everywhere Patternless)
    {o : Outcome (Composite × List (Node G)) G}
    (ho : Composite.tickParallel asMachine policy f cs w = o) (hdone : o.status ≠ .running) :
    (composite title o.node.1 o.node.2).Clean := by
  have hkeep := settles_patternless.tickAll (Nat.le_refl f.now.nanos) hcs w
  unfold Composite.tickParallel at ho
  dsimp only at ho
  -- undecided, or decided: then all children are reset
  split at ho
  · subst ho
    exact absurd rfl hdone
  · subst ho
    exact clean_conclude _ hkeep _ _

/-- **Composites that are done and clean**: sequences, selectors and parallels, in whatever state
and with whatever children; and random selectors too whose children are settled, as they are between
two ticks of a tree of plain nodes. -/
theorem clean_of_concluded {c : Composite}
    (hdone : ((composite title c cs).tick f w).status ≠ .running) :
    (c.isRandom = false → (∀ ch ∈ cs, ch.Everywhere Patternless) →
      ((composite title c cs).tick f w).node.Clean) ∧
    (∀ t, t ≤ f.now → (composite title c cs).Everywhere (Settled t) →
      ((composite title c cs).tick f w).node.Clean) := by
  -- a plain composite resets its children when it is done; a settled tree is clean when it is done
  refine ⟨fun hc hcs => ?_, fun t ht hsettled => settles.done w hsettled ht hdone⟩
  rw [tick_eq] at hdone ⊢
  cases c with
  | sequence cursor => exact clean_tickInOrder cursor hcs rfl Status.noConfusion hdone
  | selector cursor => exact clean_tickInOrder cursor hcs rfl Status.noConfusion hdone
  | parallel policy => exact clean_tickParallel hcs rfl hdone
  -- the composites that draw are the ones excepted
  | random d => cases hc
  | weighted ws d => cases hc

end Composites

/-- A sequence that concludes over a child which succeeds while what is below it is running. -/
theorem clean_of_concluded_sequence :
    let n : Node Unit :=
      .sequence [.succeeder (some (.sequence [.fixed .success, .fixed .running]))]
    let o := n.tick (.atMillis 0) ⟨.empty, { game := () }⟩
    o.status = .success ∧ o.node.Clean := by
  intro n o
  have hstatus : o.status = .success := rfl
  have hdone : o.status ≠ .running := by
    rw [hstatus]
    exact Status.noConfusion
  refine ⟨hstatus, (clean_of_concluded hdone).1 rfl fun ch hch => ?_⟩
  obtain rfl := List.mem_singleton.mp hch
  simp [succeeder, sequence, fixed, Patternless]

/-- Random selectors that commit to such a child and let go of it. -/
theorem random_selectors_not_clean :
    let child : Node Unit := .succeeder (some (.sequence [.fixed .success, .fixed .running]))
    let random : Node Unit := .randomSelector 0 [child]
    let weighted : Node Unit := .weightedSelector none 0 [child]
    let w : World Unit := ⟨.empty, { game := () }⟩
    (random.Clean ∧ (random.tick (.atMillis 0) w).status = .success ∧
      ¬ (random.tick (.atMillis 0) w).node.Clean) ∧
    weighted.Clean ∧ (weighted.tick (.atMillis 0) w).status = .success ∧
      ¬ (weighted.tick (.atMillis 0) w).node.Clean := by
  have hchild : ∀ c ∈ ([.succeeder (some (.sequence [.fixed .success, .fixed .running]))] :
      List (Node Unit)), c.Clean := by
    simp [Clean, succeeder, sequence, fixed, Idle, Composite.Idle, Decorator.Idle, Leaf.Idle]
  -- a tick leaves the sequence below past its first child
  have hleft : ∀ c : Composite, ¬ (composite none c
      [.succeeder (some (.composite none (.sequence 1) [.fixed .success, .fixed .running]))] :
        Node Unit).Clean := by
    simp [Clean, succeeder, Idle, Composite.Idle]
  constructor
  · exact ⟨⟨rfl, hchild⟩, rfl, hleft (.random { stream := 0, count := 1 })⟩
  · exact ⟨⟨rfl, hchild⟩, rfl, hleft (.weighted none { stream := 0, count := 1 })⟩

end Node

end Instinct
