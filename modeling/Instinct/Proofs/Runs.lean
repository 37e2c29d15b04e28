import Instinct.Node
import Mathlib.Data.List.Forall2

/-! # Runs: what is done from outside, one thing after the other

* **`Move G`** — a tick, a reset, or the game going on by itself.
* **`runSteps`**, **`runSteps_concat`** — take steps one after the other and collect what they
  report; one more step at the end.
* **`runSteps_map`**, **`runSteps_filterMap`** — steps that report more, or more often, take the
  same run.
* **`Machine.run`**, **`Tree.run`** — the run of a machine in a world and of a tree on a stage.
* **`runSteps_invariant`** — a run keeps what every step keeps.
* **`runSteps_keeps`**, **`runSteps_keeps_until`** — the same where what is kept depends on the
  time, as long as time never goes back.
* **`runSteps_history`** — a run keeps what every step keeps of its history.
* **`runSteps_together`** — two runs stay together if every two steps do. -/

namespace Instinct

/-- **What is done from outside.** -/
inductive Move (G : Type) where
  /-- One tick. -/
  | tick (frame : Frame)
  /-- A reset. -/
  | reset
  /-- The game goes on by itself and may change the blackboard too. -/
  | meanwhile (change : World G → World G)

namespace Move

variable {G : Type}

/-- The time of a tick. -/
def time? : Move G → Option Duration
  | tick frame => some frame.now
  | reset => none
  | meanwhile _ => none

/-- The times of the ticks, in order. -/
def times (moves : List (Move G)) : List Duration := moves.filterMap time?

/-- **Time never goes back.** -/
def Forward (moves : List (Move G)) : Prop := (times moves).Pairwise (· ≤ ·)

instance (moves : List (Move G)) : Decidable (Forward moves) :=
  inferInstanceAs (Decidable ((times moves).Pairwise (· ≤ ·)))

end Move

/-- **Take steps one after the other** and collect what they report. -/
def runSteps {A S R : Type} (step : A → S → Option R × S) : List A → S → List R × S
  | [], s => ([], s)
  | a :: as, s =>
    let rest := runSteps step as (step a s).2
    ((step a s).1.toList ++ rest.1, rest.2)

variable {A B S T R N G : Type}

/-- The first step comes before the others. -/
theorem runSteps_cons (step : A → S → Option R × S) (a : A) (as : List A) (s : S) :
    runSteps step (a :: as) s =
      ((step a s).1.toList ++ (runSteps step as (step a s).2).1,
        (runSteps step as (step a s).2).2) := rfl

/-- **One more step at the end of a run.** -/
theorem runSteps_concat (step : A → S → Option R × S) (as : List A) (a : A) (s : S) :
    runSteps step (as ++ [a]) s =
      ((runSteps step as s).1 ++ (step a (runSteps step as s).2).1.toList,
        (step a (runSteps step as s).2).2) := by
  induction as generalizing s with
  | nil => simp [runSteps]
  | cons b as ih => simp [runSteps_cons, ih, List.append_assoc]

/-- One thing done to a machine in a world. -/
def Machine.make (m : Machine N G) : Move G → N × World G → Option Status × N × World G
  | .tick frame, (n, w) =>
    let o := m.tick frame n w
    (some o.status, o.node, o.world)
  | .reset, (n, w) => (none, m.resetIn n w)
  | .meanwhile change, (n, w) => (none, n, change w)

/-- **The run of a machine**: the statuses of its ticks, and what is left of it and the world. -/
def Machine.run (m : Machine N G) (moves : List (Move G)) (n : N) (w : World G) :
    List Status × N × World G := runSteps m.make moves (n, w)

/-- One thing done to a tree on a stage. -/
def Tree.make (m : Machine N G) : Move G → Tree N × Stage G → Option Status × Tree N × Stage G
  | .tick frame, (t, s) =>
    let (status, t, s) := t.tick m frame s
    (some status, t, s)
  | .reset, (t, s) => (none, t.reset m, s.mapGame (t.onReset m))
  | .meanwhile change, (t, s) =>
    let w := change { board := t.board, stage := s }
    (none, { t with board := w.board }, w.stage)

/-- **The run of a tree**: the statuses of its ticks, and what is left of it and the stage. -/
def Tree.run (m : Machine N G) (moves : List (Move G)) (t : Tree N) (s : Stage G) :
    List Status × Tree N × Stage G := runSteps (Tree.make m) moves (t, s)

/-- **Steps that report more** take the same run. -/
theorem runSteps_map {step : A → S → Option R × S} {step' : A → S → Option T × S} {told : T → R}
    (hstep : ∀ a s, step a s = ((step' a s).1.map told, (step' a s).2)) (as : List A) (s : S) :
    runSteps step as s = ((runSteps step' as s).1.map told, (runSteps step' as s).2) := by
  induction as generalizing s with
  | nil => rfl
  | cons a as ih =>
    rw [runSteps_cons, runSteps_cons, hstep]
    dsimp only
    rw [ih, List.map_append, Option.toList_map]

/-- **Steps that report more often** take the same run. -/
theorem runSteps_filterMap {step : A → S → Option R × S} {step' : A → S → Option T × S}
    {told : T → Option R} (hstep : ∀ a s, step a s = ((step' a s).1.bind told, (step' a s).2))
    (as : List A) (s : S) :
    runSteps step as s = ((runSteps step' as s).1.filterMap told, (runSteps step' as s).2) := by
  induction as generalizing s with
  | nil => rfl
  | cons a as ih =>
    rw [runSteps_cons, runSteps_cons, hstep]
    dsimp only
    rw [ih, List.filterMap_append]
    cases hreport : (step' a s).1 with
    | none => rfl
    | some r => cases htold : told r <;> simp [htold]

/-! ## What a run keeps -/

/-- **A run keeps what every step keeps.** -/
theorem runSteps_invariant {step : A → S → Option R × S} {I : S → Prop} {as : List A}
    (hstep : ∀ a ∈ as, ∀ s, I s → I (step a s).2) {s : S} (hs : I s) :
    I (runSteps step as s).2 := by
  induction as generalizing s with
  | nil => exact hs
  | cons a as ih =>
    obtain ⟨hfirst, hrest⟩ := List.forall_mem_cons.mp hstep
    rw [runSteps_cons]
    exact ih hrest (hfirst s hs)

/-- **A run keeps what every step keeps** while time does not go back, where what is kept may depend
on the time of the last tick. -/
theorem runSteps_keeps {step : Move G → S → Option R × S} {I : Duration → S → Prop}
    (htick : ∀ frame t s, I t s → t ≤ frame.now → I frame.now (step (.tick frame) s).2)
    (hreset : ∀ t s, I t s → I t (step .reset s).2)
    (hmeanwhile : ∀ change t s, I t s → I t (step (.meanwhile change) s).2)
    {moves : List (Move G)} (hforward : Move.Forward moves) {t : Duration}
    (hstart : ∀ u ∈ Move.times moves, t ≤ u) {s : S} (hs : I t s) :
    ∃ u ∈ t :: Move.times moves, I u (runSteps step moves s).2 := by
  induction moves generalizing t s with
  | nil => exact ⟨t, List.mem_cons_self, hs⟩
  | cons a moves ih =>
    cases a with
    | tick frame =>
      obtain ⟨hfirst, hrest⟩ := List.pairwise_cons.mp hforward
      -- from now on the time of this tick is the last one
      have hnow : t ≤ frame.now := hstart _ List.mem_cons_self
      obtain ⟨u, hu, hI⟩ := ih hrest hfirst (htick frame t s hs hnow)
      exact ⟨u, List.mem_cons_of_mem t hu, hI⟩
    | reset => exact ih hforward hstart (hreset t s hs)
    | meanwhile change => exact ih hforward hstart (hmeanwhile change t s hs)

/-- **What holds when a tick comes after a run**, at the time of some tick before it. -/
theorem runSteps_keeps_until {step : Move G → S → Option R × S} {I : Duration → S → Prop}
    (htick : ∀ frame t s, I t s → t ≤ frame.now → I frame.now (step (.tick frame) s).2)
    (hreset : ∀ t s, I t s → I t (step .reset s).2)
    (hmeanwhile : ∀ change t s, I t s → I t (step (.meanwhile change) s).2)
    {moves : List (Move G)} {frame : Frame} (hforward : Move.Forward (moves ++ [.tick frame]))
    {s : S} (hs : I .zero s) : ∃ u, u ≤ frame.now ∧ I u (runSteps step moves s).2 := by
  have htimes : Move.times (moves ++ [.tick frame]) = Move.times moves ++ [frame.now] :=
    List.filterMap_append
  rw [Move.Forward, htimes, List.pairwise_append] at hforward
  -- the last tick is no earlier than any before it
  obtain ⟨hforward, -, hlast⟩ := hforward
  have hstart : ∀ u ∈ Move.times moves, Duration.zero ≤ u := fun u _ => Nat.zero_le u.nanos
  obtain ⟨u, hu, hI⟩ := runSteps_keeps htick hreset hmeanwhile hforward hstart hs
  refine ⟨u, ?_, hI⟩
  rcases List.mem_cons.mp hu with rfl | hu
  · exact Nat.zero_le frame.now.nanos
  · exact hlast u hu frame.now (List.mem_singleton_self _)

/-- **A run keeps what every step keeps of its history**: the reports so far and the state that the
steps have led to. -/
theorem runSteps_history {step : A → S → Option R × S} {I : List R → S → Prop} {as : List A}
    (hstep : ∀ a ∈ as, ∀ rs s, I rs s → I (rs ++ (step a s).1.toList) (step a s).2)
    {rs : List R} {s : S} (hs : I rs s) :
    I (rs ++ (runSteps step as s).1) (runSteps step as s).2 := by
  induction as generalizing rs s with
  | nil => rwa [runSteps, List.append_nil]
  | cons a as ih =>
    obtain ⟨hfirst, hrest⟩ := List.forall_mem_cons.mp hstep
    rw [runSteps_cons, ← List.append_assoc]
    exact ih hrest (hfirst rs s hs)

/-- **Two runs stay together** if every two steps do. -/
theorem runSteps_together {step : A → S → Option R × S} {step' : B → T → Option R × T}
    {P : A → B → Prop} {Q : S → T → Prop}
    (hstep : ∀ a b s t, P a b → Q s t →
      (step' b t).1 = (step a s).1 ∧ Q (step a s).2 (step' b t).2)
    {as : List A} {bs : List B} (hmoves : List.Forall₂ P as bs) {s : S} {t : T} (hst : Q s t) :
    (runSteps step' bs t).1 = (runSteps step as s).1 ∧
      Q (runSteps step as s).2 (runSteps step' bs t).2 := by
  induction hmoves generalizing s t with
  -- what both report in one step is the same, and they stay together
  | nil => exact ⟨rfl, hst⟩
  | cons hab _ ih =>
    obtain ⟨hreport, hafter⟩ := hstep _ _ _ _ hab hst
    obtain ⟨hreports, hend⟩ := ih hafter
    rw [runSteps_cons, runSteps_cons, hreport, hreports]
    exact ⟨rfl, hend⟩

end Instinct
