import Instinct.Proofs.Conclusions
import Instinct.Proofs.Selection.Fresh

/-! # What a reset leaves of the patterns

A reset of a leaf that drives patterns reaches the tree of the pattern in progress and no other.
That is enough for patterns which end clean. A tree that reports a status of its own while what is
below it is running ends with an unfinished run, and keeps it through the reset.

* **`Selection.Sound.clean_reset_iff`** — after which resets all patterns of an archetype are clean.
* **`Selection.Course.fresh_run_anytime`** — runs in which time may go back.
* **`Node.patterns_reset`** — what a reset after any run leaves.
* **`Node.patterns_reset_unfinished`** — a pattern that is not clean after a reset. -/

namespace Instinct

variable {N G : Type}

namespace Selection

variable {m : Machine N G} {P C : N → Prop} {sel : Selection N G}
  {r : Repertoire N G} {archetype : String} {t u : Duration}

/-! ## One reset -/

/-- **After a reset the patterns of an archetype are clean** just if those were that the reset does
not reach, provided that it does clean the one in progress. -/
theorem Sound.clean_reset_iff (h : sel.Sound)
    (hreset : ∀ p ∈ sel.repertoire.available sel.archetype, C (p.reset m).tree.root) :
    (∀ p ∈ (sel.reset m).repertoire.available sel.archetype, C p.tree.root) ↔
      ∀ p ∈ sel.repertoire.available sel.archetype,
        sel.running ≠ some p.name → C p.tree.root := by
  rw [available_reset_eq h.distinct, List.forall_mem_map]
  refine forall₂_congr fun p hp => ?_
  by_cases hrunning : sel.running = some p.name
  · rw [if_pos ⟨rfl, hrunning⟩]
    exact ⟨fun _ hother => absurd hrunning hother, fun _ => hreset p hp⟩
  · rw [if_neg fun hand => hrunning hand.2]
    exact ⟨fun hclean _ => hclean, fun hclean => hclean hrunning⟩

/-! ## Whole runs -/

/-- An invariant that knows nothing of time holds at all times. -/
theorem Resting.anytime {busy : Option String} (h : sel.Resting (fun _ n => P n) C t busy) :
    sel.Resting (fun _ n => P n) C u busy := ⟨h.kept, h.clean⟩

/-- Where time does not matter a course is fresh at any time. -/
theorem Course.Fresh.anytime {c : Course N G} (h : c.Fresh (fun _ n => P n) C r archetype t) :
    c.Fresh (fun _ n => P n) C r archetype u := ⟨h.steady, h.resting.anytime, h.reported⟩

/-- **Every run keeps the patterns fresh**, whether or not time goes back, if the invariant knows
nothing of time. -/
theorem Course.fresh_run_anytime (h : m.Settles (fun _ n => P n) C) (hd : r.Distinct)
    (hr : ∀ a, ∀ p ∈ r.available a, P p.tree.root ∧ C p.tree.root) (archetype : String)
    (moves : List (Move G)) (w : World G) :
    (run m moves ⟨{ archetype, repertoire := r }, w, [], none⟩).2.Fresh (fun _ n => P n) C r
      archetype .zero := by
  have hinitial : Fresh (fun _ n => P n) C r archetype .zero
      (⟨{ archetype, repertoire := r }, w, [], none⟩ : Course N G) := by
    refine ⟨steady_initial hd archetype w, ⟨?_, ?_⟩, ?_⟩
    · exact fun a p hp => (hr a p hp).1
    · exact fun a p hp _ => (hr a p hp).2
    · simp
  -- every move keeps the course fresh, and its time is put back after each tick
  refine runSteps_invariant (fun move _ c hc => ?_) hinitial
  cases move with
  | tick frame => exact (hc.tick h (Nat.zero_le frame.now.nanos)).anytime
  | reset => exact hc.reset h
  | meanwhile change => exact ⟨hc.steady.meanwhile change, hc.resting, hc.reported⟩

end Selection

namespace Node

open Selection

variable {r : Repertoire (Node G) G}

/-- **What a reset after any run leaves** of patterns whose trees are arbitrary, but for leaves that
drive patterns themselves. Nothing is in progress, the pattern that was is clean, and every other
pattern is as it was, clean or not. If the trees were clean at first and made of plain nodes and
time never went back, then all are clean. -/
theorem patterns_reset (hr : r.Filled fun p => p.tree.root.Everywhere Patternless)
    (archetype : String) (moves : List (Move G)) (w : World G) :
    let c := (Course.run asMachine moves ⟨{ archetype, repertoire := r }, w, [], none⟩).2
    let s := c.leaf.reset asMachine
    (asMachine.run (moves ++ [.reset]) (patternsOf archetype r) w).2.1 = .patterns none s ∧
    s.running = none ∧
    (∀ a, s.repertoire.available a = (c.leaf.repertoire.available a).map fun p =>
      if archetype = a ∧ c.leaf.running = some p.name then p.reset asMachine else p) ∧
    (∀ p ∈ c.leaf.repertoire.available archetype, (p.reset asMachine).tree.root.Clean) ∧
    ((∀ p ∈ s.repertoire.available archetype, p.tree.root.Clean) ↔
      ∀ p ∈ c.leaf.repertoire.available archetype,
        c.leaf.running ≠ some p.name → p.tree.root.Clean) ∧
    ∀ frame, Move.Forward (moves ++ [.tick frame]) →
      (∀ a, ∀ p ∈ r.available a, p.tree.root.Clean ∧ p.tree.root.Everywhere Plain) →
      ∀ a, ∀ p ∈ s.repertoire.available a, p.tree.root.Clean := by
  intro c s
  have hfresh := Course.fresh_run_anytime settles_patternless hr.distinct
    (fun a p hp => ⟨hr.of_mem a p hp, trivial⟩) archetype moves w
  have hwhose : c.leaf.archetype = archetype := hfresh.steady.whose
  have hsound : c.leaf.Sound := hfresh.steady.sound
  have hreset : ∀ p ∈ c.leaf.repertoire.available archetype,
      (p.reset asMachine).tree.root.Clean := fun p hp =>
    clean_reset (hfresh.resting.kept archetype p hp)
  refine ⟨?_, running_reset, fun a => ?_, hreset, ?_, ?_⟩
  · -- the reset at the end of the run is the reset of the leaf that the run left
    have hrun := Course.run_patterns none (moves ++ [.reset])
      ⟨{ archetype, repertoire := r }, w, [], none⟩
    rw [Course.run, runSteps_concat] at hrun
    exact congrArg (·.2.1) hrun
  · rw [← hwhose]
    exact available_reset_eq hsound.distinct a
  · rw [← hwhose] at hreset ⊢
    exact hsound.clean_reset_iff hreset
  · intro frame hforward hplain
    -- a clean tree of plain nodes is settled, and settled trees are clean when they are done
    have hsettled : ∀ a, ∀ p ∈ r.available a,
        p.tree.root.Everywhere (Settled .zero) ∧ p.tree.root.Clean := by
      intro a p hp
      obtain ⟨hclean, hplain⟩ := hplain a p hp
      exact ⟨hclean.settled hplain .zero, hclean⟩
    obtain ⟨t, -, hsettledRun⟩ :=
      Course.fresh_run settles hr.distinct hsettled archetype hforward w
    have hrest := hsettledRun.resting.reset settles hsound.distinct
    intro a p hp
    exact hrest.clean a p hp fun _ hbusy => nomatch hbusy

/-- A bite that is broken off. -/
theorem patterns_reset_bite :
    let r : Repertoire (Node Unit) Unit := .ofPatterns "wolf"
      [{ name := "bite", tree := { root := .wait (.ofMillis 5) } }]
    let c := (Course.run asMachine [.tick (.atMillis 0)]
      ⟨{ archetype := "wolf", repertoire := r }, ⟨.empty, { game := () }⟩, [], none⟩).2
    let s := c.leaf.reset asMachine
    (r.Filled fun p => p.tree.root.Everywhere Patternless) ∧
    c.leaf.running = some "bite" ∧ s.running = none ∧
    ∀ p ∈ s.repertoire.available "wolf", p.tree.root.Clean := by
  intro r c s
  have hwait : (Node.wait (.ofMillis 5) : Node Unit).Everywhere Patternless ∧
      (Node.wait (.ofMillis 5) : Node Unit).Clean ∧
      (Node.wait (.ofMillis 5) : Node Unit).Everywhere Plain := by
    simp [Clean, wait, Idle, Leaf.Idle, Patternless, Plain, kind, Leaf.kind]
  have hr : r.Filled fun p => p.tree.root.Everywhere Patternless := .register .empty hwait.1 rfl
  have hplain : r.Filled fun p => p.tree.root.Clean ∧ p.tree.root.Everywhere Plain :=
    .register .empty hwait.2 rfl
  have hforward : Move.Forward ([.tick (.atMillis 0)] ++ [.tick (.atMillis 5)] :
      List (Move Unit)) := by decide
  obtain ⟨-, hidle, -, -, -, hclean⟩ :=
    patterns_reset hr "wolf" [.tick (.atMillis 0)] ⟨.empty, { game := () }⟩
  exact ⟨hr, by decide +kernel, hidle, hclean _ hforward hplain.of_mem "wolf"⟩

/-- A bite that succeeds while what is below it is running. It is not in progress when the leaf is
reset, so its sequence stays where it is. -/
theorem patterns_reset_unfinished :
    let bite : Node Unit := .succeeder (some (.sequence [.fixed .success, .fixed .running]))
    let r : Repertoire (Node Unit) Unit := .ofPatterns "wolf"
      [{ name := "bite", tree := { root := bite } }]
    let o := asMachine.run [.tick (.atMillis 0), .reset] (patternsOf "wolf" r)
      ⟨.empty, { game := () }⟩
    bite.Clean ∧ o.1 = [.success] ∧ ∃ s, o.2.1 = .patterns none s ∧ s.running = none ∧
      ∃ p ∈ s.repertoire.available "wolf", ¬ p.tree.root.Clean := by
  intro bite r o
  have hbite : bite.Clean := by
    simp [bite, Clean, succeeder, sequence, fixed, Idle, Composite.Idle, Decorator.Idle, Leaf.Idle]
  refine ⟨hbite, rfl, _, rfl, rfl, _, List.mem_singleton_self _, ?_⟩
  show ¬ (decorator none .succeeder
    (some (.composite none (.sequence 1) [.fixed .success, .fixed .running])) : Node Unit).Clean
  simp [Clean, Idle, Composite.Idle]

end Node

end Instinct
