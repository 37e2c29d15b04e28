import Instinct.Node.Kinds
import Instinct.Proofs.Coupling.Exact
import Instinct.Proofs.Runs
import Instinct.Proofs.Settling.Kinds

/-! # A tree that is done is clean

* **`Node.Clean`** — nothing in a subtree holds an unfinished run.
* **`Node.Plain`** — the kinds of nodes for which this holds: those that come with the library, but
  for the two that report a status of their own while their child is still running.
* **`Node.Settled`** — the invariant: which children of a node are clean between two ticks.
* **`Node.settles`** — a node that is settled stays so, and a tick that is done leaves it clean.
* **`Tree.clean_of_done`** — so it is after every run, and a reset changes nothing then. -/

namespace Instinct

namespace Node

variable {G : Type}

/-- **A node that holds no unfinished run itself.** -/
def Idle : Node G → Prop
  | composite _ c _ => c.Idle
  | decorator _ d _ => d.Idle
  | leaf _ l => l.Idle
  | patterns _ s => s.running = none
  | custom _ _ => True

/-- **Nothing in the subtree holds an unfinished run.** -/
def Clean (n : Node G) : Prop := n.Everywhere Idle

/-- **A node that comes with the library** and does not report a status of its own. -/
def Plain (n : Node G) : Prop := n.kind ≠ .succeeder ∧ n.kind ≠ .failer ∧ n.kind ≠ .custom

/-- **Which nodes right below a node are clean between two ticks**, the last of them at `t`. -/
def Settled (t : Duration) : Node G → Prop
  | composite _ c cs => c.Settled Clean cs
  | decorator _ d child => d.Settled Clean t child
  | leaf _ _ => True
  | patterns _ _ => False
  | custom _ _ => False

/-! ## Clean nodes -/

/-- A clean tree of plain nodes is settled, at any time. -/
theorem Clean.settled {n : Node G} (hclean : n.Clean) (hplain : n.Everywhere Plain)
    (t : Duration) : n.Everywhere (Settled t) := by
  -- induction on the tree: what is below has been seen to be settled
  induction n using beneath_induction with
  | step n ih =>
    obtain ⟨hidle, hbelow⟩ := hclean
    obtain ⟨⟨hsucceeder, hfailer, hcustom⟩, hplains⟩ := hplain
    refine ⟨?_, fun c hc => ih c hc (hbelow c hc) (hplains c hc)⟩
    cases n with
    | composite title c cs => exact Composite.Idle.settled hidle hbelow
    | decorator title d child =>
      cases child with
      | none => exact hidle
      | some c =>
        have hc : c.Clean := hbelow c (List.mem_singleton_self c)
        exact Decorator.settledAround_of_clean hsucceeder hfailer hc
    | leaf title l => exact trivial
    -- a plain tree has neither patterns nor nodes of the game's own
    | patterns title s => exact absurd rfl hcustom
    | custom c cs => exact absurd rfl hcustom

/-- **A reset changes nothing in a settled tree that is clean**, and does nothing to the game. -/
theorem Clean.reset_unchanged {n : Node G} (hclean : n.Clean) {t : Duration}
    (hsettled : n.Everywhere (Settled t)) : n.reset = n ∧ ∀ g, n.onReset g = g := by
  induction n using beneath_induction with
  | step n ih =>
    obtain ⟨hidle, hbelow⟩ := hclean
    obtain ⟨hsettled, hsettleds⟩ := hsettled
    -- below the node a reset changes nothing, so it is left to look at its own memory
    have hsame : ∀ c ∈ n.beneath, c.reset = c ∧ ∀ g, c.onReset g = g := fun c hc =>
      ih c hc (hbelow c hc) (hsettleds c hc)
    rw [reset_eq, onReset_eq]
    cases n with
    | composite title c cs =>
      have hsame : ∀ c ∈ cs, c.reset = c ∧ ∀ g, c.onReset g = g := hsame
      have hidle : c.Idle := hidle
      have hcs : cs.map reset = cs := by
        rw [List.map_congr_left fun c hc => (hsame c hc).1]
        exact List.map_id cs
      refine ⟨?_, Machine.onResetAll_of_same fun c hc => (hsame c hc).2⟩
      show composite title c.reset (cs.map reset) = _
      rw [hidle.reset_eq, hcs]
    | decorator title d child =>
      have hidle : d.Idle := hidle
      cases child with
      | none => exact ⟨congrArg (decorator title · none) hidle.reset_eq, fun _ => rfl⟩
      | some c =>
        obtain ⟨hc, hg⟩ := hsame c (List.mem_singleton_self c)
        refine ⟨?_, hg⟩
        show decorator title d.reset (some c.reset) = _
        rw [hidle.reset_eq, hc]
    | leaf title l =>
      have hidle : l.Idle := hidle
      exact ⟨congrArg (leaf title) hidle.reset_eq, fun _ => rfl⟩
    | patterns title s => exact hsettled.elim
    | custom c cs => exact hsettled.elim

/-! ## The invariant -/

/-- A node that is settled stays so as time goes by. -/
theorem Settled.later {n : Node G} {t u : Duration} (htu : t ≤ u) (h : n.Settled t) :
    n.Settled u := by
  cases n with
  -- only a decorator around a child looks at the clock
  | decorator title d child =>
    cases child with
    | none => exact h
    | some c => exact Decorator.SettledAround.later htu h
  | composite title c cs => exact h
  | leaf title l => exact h
  | patterns title s => exact h
  | custom c cs => exact h

section Layer

variable {k : Nat} {t : Duration} {f : Frame} {n : Node G}

/-- Settled nodes of so many levels, as machines. -/
def SettlesUpto (G : Type) (k : Nat) : Prop :=
  (asMachine : Machine (Node G) G).Settles
    (fun t n => n.levels ≤ k ∧ n.Everywhere (Settled t)) Clean

/-- **One tick of a settled node**, the nodes below being settled machines. -/
theorem settled_tick (h : SettlesUpto G k) (hlevels : n.levels ≤ k + 1)
    (hn : n.Everywhere (Settled t)) (ht : t ≤ f.now) (w : World G) :
    (n.tick f w).node.Everywhere (Settled f.now) ∧
      ((n.tick f w).status ≠ .running → (n.tick f w).node.Clean) := by
  obtain ⟨hsettled, hbelow⟩ := hn
  -- the children have a level less, so the assumption is about them
  have hboth : ∀ c ∈ n.beneath, c.levels ≤ k ∧ c.Everywhere (Settled t) := fun c hc =>
    ⟨(n.levels_le_succ_iff k).mp hlevels c hc, hbelow c hc⟩
  rw [tick_eq]
  cases n with
  | composite title c cs =>
    obtain ⟨hafter, hkeep, hdone⟩ := h.composite ht hboth hsettled w
    exact ⟨⟨hafter, fun c hc => (hkeep c hc).2⟩,
      fun hstatus => ⟨(hdone hstatus).1, (hdone hstatus).2⟩⟩
  | decorator title d child =>
    have hchild : ∀ c ∈ child, c.levels ≤ k ∧ c.Everywhere (Settled t) := fun c hc =>
      hboth c (Option.mem_toList.mpr hc)
    obtain ⟨hafter, hkeep, hdone⟩ := h.decorator ht hchild hsettled w
    refine ⟨⟨hafter, fun c hc => (hkeep c (Option.mem_toList.mp hc)).2⟩, fun hstatus => ?_⟩
    exact ⟨(hdone hstatus).1, fun c hc => (hdone hstatus).2 c (Option.mem_toList.mp hc)⟩
  | leaf title l =>
    refine ⟨⟨trivial, fun c hc => nomatch hc⟩, fun hstatus => ⟨?_, fun c hc => nomatch hc⟩⟩
    exact Leaf.idle_of_done hstatus
  -- nothing of these two kinds is settled
  | patterns title s => exact hsettled.elim
  | custom c cs => exact hsettled.elim

/-- **The reset of a settled node** is clean and settled. -/
theorem settled_reset (h : SettlesUpto G k) (hlevels : n.levels ≤ k + 1)
    (hn : n.Everywhere (Settled t)) :
    n.reset.Everywhere (Settled t) ∧ n.reset.Clean := by
  obtain ⟨hsettled, hbelow⟩ := hn
  have hboth : ∀ c ∈ n.beneath, c.levels ≤ k ∧ c.Everywhere (Settled t) := fun c hc =>
    ⟨(n.levels_le_succ_iff k).mp hlevels c hc, hbelow c hc⟩
  rw [reset_eq]
  cases n with
  | composite title c cs =>
    obtain ⟨hkeep, hclean⟩ := h.resetAll hboth
    exact ⟨⟨c.idle_reset.settled hclean, fun c hc => (hkeep c hc).2⟩, c.idle_reset, hclean⟩
  | decorator title d child =>
    cases child with
    | none =>
      exact ⟨⟨d.idle_reset, fun c hc => nomatch hc⟩, d.idle_reset, fun c hc => nomatch hc⟩
    | some c =>
      have hc := hboth c (List.mem_singleton_self c)
      -- a reset decorator may wait for its child to be clean, which it is now
      have hclean := h.clean hc
      have hsettled : d.SettledAround Clean t c := hsettled
      refine ⟨⟨hsettled.reset hclean, fun c' hc' => ?_⟩, d.idle_reset, fun c' hc' => ?_⟩
      · obtain rfl := List.mem_singleton.mp hc'
        exact (h.reset hc).2
      · obtain rfl := List.mem_singleton.mp hc'
        exact hclean
  | leaf title l =>
    exact ⟨⟨trivial, fun c hc => nomatch hc⟩, l.idle_reset, fun c hc => nomatch hc⟩
  | patterns title s => exact hsettled.elim
  | custom c cs => exact hsettled.elim

end Layer

/-- Trees of any number of levels settle. -/
theorem settlesUpto (k : Nat) : SettlesUpto G k := by
  induction k with
  | zero =>
    -- there is no node without levels
    have hnone : ∀ {t : Duration} {n : Node G}, ¬ (n.levels ≤ 0 ∧ n.Everywhere (Settled t)) := by
      intro t n hn
      have hlevels := n.one_le_levels
      omega
    exact {
      keep := fun _ hn _ => absurd hn hnone
      done := fun _ hn _ => absurd hn hnone
      reset := fun hn => absurd hn hnone
      clean := fun hn => absurd hn hnone
      later := fun hn => absurd hn hnone }
  | succ k ih =>
    exact {
      keep := fun w hn ht => ⟨levels_tick_le hn.1 _ w, (settled_tick ih hn.1 hn.2 ht w).1⟩
      done := fun w hn ht hstatus => (settled_tick ih hn.1 hn.2 ht w).2 hstatus
      reset := fun hn => ⟨levels_reset_le hn.1, (settled_reset ih hn.1 hn.2).1⟩
      clean := fun hn => (settled_reset ih hn.1 hn.2).2
      later := fun hn htu => ⟨hn.1, hn.2.mono fun _ hm => hm.later htu⟩ }

/-- **A settled node stays settled, and a tick that is done leaves it clean.** -/
theorem settles : (asMachine : Machine (Node G) G).Settles (fun t n => n.Everywhere (Settled t))
    Clean where
  keep {_ _ n} w hn ht := ((settlesUpto n.levels).keep w ⟨Nat.le_refl _, hn⟩ ht).2
  done {_ _ n} w hn ht hstatus := (settlesUpto n.levels).done w ⟨Nat.le_refl _, hn⟩ ht hstatus
  reset {_ n} hn := ((settlesUpto n.levels).reset ⟨Nat.le_refl _, hn⟩).2
  clean {_ n} hn := (settlesUpto n.levels).clean ⟨Nat.le_refl _, hn⟩
  later hn htu := hn.mono fun _ hm => hm.later htu

end Node

/-! ## Whole runs -/

namespace Tree

variable {G : Type}

/-- Whatever is done to a tree, its root stays settled. -/
theorem settled_run {t : Tree (Node G)} {moves : List (Move G)} (hforward : Move.Forward moves)
    {start : Duration} (hstart : ∀ now ∈ Move.times moves, start ≤ now)
    (ht : t.root.Everywhere (Node.Settled start)) (s : Stage G) :
    ∃ now ∈ start :: Move.times moves,
      (t.run Node.asMachine moves s).2.1.root.Everywhere (Node.Settled now) := by
  -- one case for each move; the time of the last tick is carried along as the bound
  refine runSteps_keeps (I := fun now (r : Tree (Node G) × Stage G) =>
    r.1.root.Everywhere (Node.Settled now)) ?_ ?_ ?_ hforward hstart ht
  · rintro frame now ⟨t, s⟩ ht hnow
    exact Node.settles.keep _ ht hnow
  · rintro now ⟨t, s⟩ ht
    exact Node.settles.reset ht
  · rintro change now ⟨t, s⟩ ht
    exact ht

/-- **A tree that is done is clean.** If time never goes back, then after any run of a tree of plain
nodes that was clean as it was built, a tick that reports success or failure leaves the tree clean,
so that a reset changes nothing in it and does nothing to the game. -/
theorem clean_of_done {t : Tree (Node G)} (hclean : t.root.Clean)
    (hplain : t.root.Everywhere Node.Plain) {moves : List (Move G)} {frame : Frame}
    (hforward : Move.Forward (moves ++ [.tick frame])) (s : Stage G) :
    let r := t.run Node.asMachine moves s
    let o := r.2.1.tick Node.asMachine frame r.2.2
    o.1 ≠ .running →
      o.2.1.root.Clean ∧ o.2.1.root.reset = o.2.1.root ∧ ∀ g, o.2.1.root.onReset g = g := by
  intro r o hdone
  have htimes : Move.times (moves ++ [.tick frame]) = Move.times moves ++ [frame.now] :=
    List.filterMap_append
  -- the last tick is not before any other
  rw [Move.Forward, htimes, List.pairwise_append] at hforward
  obtain ⟨hforward, -, hlast⟩ := hforward
  have hstart : ∀ now ∈ Move.times moves, Duration.zero ≤ now := fun now _ => Nat.zero_le now.nanos
  obtain ⟨now, hmem, hsettled⟩ := settled_run hforward hstart (hclean.settled hplain _) s
  have hnow : now ≤ frame.now := by
    rcases List.mem_cons.mp hmem with rfl | hmem
    · exact Nat.zero_le frame.now.nanos
    · exact hlast now hmem frame.now (List.mem_singleton_self _)
  -- the tick that is done, one step after the run
  have hcleaned : o.2.1.root.Clean := Node.settles.done ⟨r.2.1.board, r.2.2⟩ hsettled hnow hdone
  have hkept : o.2.1.root.Everywhere (Node.Settled frame.now) :=
    Node.settles.keep ⟨r.2.1.board, r.2.2⟩ hsettled hnow
  exact ⟨hcleaned, hcleaned.reset_unchanged hkept⟩

/-- A wait within a cooldown within a timeout, ticked until it is done. -/
theorem clean_of_done_wait :
    let t : Tree (Node Unit) :=
      { root := .timeout (.ofMillis 20)
          (some (.cooldown (.ofMillis 10) (some (.wait (.ofMillis 5))))) }
    let r := t.run Node.asMachine [.tick (.atMillis 0)] { game := () }
    let o := r.2.1.tick Node.asMachine (.atMillis 5) r.2.2
    t.root.Clean ∧ t.root.Everywhere Node.Plain ∧ ¬ r.2.1.root.Clean ∧ o.1 = .success ∧
      o.2.1.root.Clean ∧ o.2.1.root.reset = o.2.1.root := by
  intro t r o
  have hclean : t.root.Clean := by
    simp [t, Node.Clean, Node.timeout, Node.cooldown, Node.wait, Node.Idle, Decorator.Idle,
      Leaf.Idle]
  have hplain : t.root.Everywhere Node.Plain := by
    simp [t, Node.timeout, Node.cooldown, Node.wait, Node.Plain, Node.kind, Decorator.kind,
      Leaf.kind]
  -- the two ticks are in the order of time
  have hforward :
      Move.Forward ([.tick (.atMillis 0)] ++ [.tick (.atMillis 5)] : List (Move Unit)) := by
    decide
  have hdone := clean_of_done hclean hplain hforward { game := () } (by decide)
  refine ⟨hclean, hplain, ?_, rfl, hdone.1, hdone.2.1⟩
  -- after the first tick the wait below has begun
  have hroot : r.2.1.root = .decorator none (.timeout (.ofMillis 20) (some (.ofMillis 0)))
      (some (.decorator none (.cooldown (.ofMillis 10) none)
        (some (.leaf none (.wait (.ofMillis 5) (some (.ofMillis 0))))))) := rfl
  rw [hroot]
  simp [Node.Clean, Node.Idle, Leaf.Idle]

end Tree

end Instinct
