import Instinct.Proofs.Selection
import Mathlib.Data.List.Induction

/-! # Starts of a pattern lie a cooldown apart

* **`Selection.lastStart`** — the time of the last start of a pattern.
* **`Selection.Course.Paced`** — the invariant: the stamp of every pattern is its last start, and no
  start came too early.
* **`Node.patterns_gated`** — a leaf of patterns starts one when it may, goes on with the one in
  progress, and keeps the starts of each a cooldown apart. -/

namespace Instinct

variable {N G : Type}

namespace Selection

variable {m : Machine N G} {frame : Frame} {p q : Pattern N G} {r : Repertoire N G}
  {archetype name : String} {starts : List Start} {t : Duration}

/-! ## The last start of a pattern -/

/-- **The time of the last start** of a pattern. -/
def lastStart (name : String) (starts : List Start) : Option Duration :=
  (starts.filter (·.name = name)).getLast?.map (·.time)

/-- The last start after one more. -/
theorem lastStart_concat (b : Start) :
    lastStart name (starts ++ [b]) =
      if b.name = name then some b.time else lastStart name starts := by
  unfold lastStart
  rw [List.filter_append]
  by_cases hb : b.name = name
  · simp [hb]
  · simp [hb]

/-- No start of a pattern is later than its last. -/
theorem exists_lastStart (hordered : starts.Pairwise (·.time ≤ ·.time)) {a : Start}
    (ha : a ∈ starts) : ∃ u, lastStart a.name starts = some u ∧ a.time ≤ u := by
  induction starts using List.reverseRecOn with
  | nil => cases ha
  | append_singleton starts b ih =>
    obtain ⟨hordered, -, hlast⟩ := List.pairwise_append.mp hordered
    -- the start added last is the one in question, or it is found among those before it
    rw [lastStart_concat]
    by_cases hb : b.name = a.name
    · refine ⟨b.time, if_pos hb, ?_⟩
      rcases List.mem_append.mp ha with ha | ha
      · exact hlast a ha b (List.mem_singleton_self b)
      · obtain rfl := List.mem_singleton.mp ha
        exact Nat.le_refl a.time.nanos
    · rw [if_neg hb]
      rcases List.mem_append.mp ha with ha | ha
      · exact ih hordered ha
      · obtain rfl := List.mem_singleton.mp ha
        exact absurd rfl hb

/-- **Starts of the same pattern lie at least its cooldown apart.** -/
def Spaced (r : Repertoire N G) (archetype : String) (starts : List Start) : Prop :=
  starts.Pairwise fun a b => a.name = b.name →
    ∀ p, r.get? archetype a.name = some p → a.time.nanos + p.cooldown.nanos ≤ b.time.nanos

/-! ## Whole runs -/

namespace Course

variable {c : Course N G}

/-- **What holds between two ticks**, the last of them at `t`: the stamp of every pattern is its
last start, and no start came too early. -/
structure Paced (r : Repertoire N G) (archetype : String) (t : Duration) (c : Course N G) :
    Prop where
  steady : c.Steady r archetype
  past : ∀ a ∈ c.starts, a.time ≤ t
  ordered : c.starts.Pairwise (·.time ≤ ·.time)
  stamped : ∀ p ∈ c.leaf.repertoire.available archetype, p.lastUsed = lastStart p.name c.starts
  spaced : Spaced r archetype c.starts

/-- Fresh patterns have no stamp, and there was no start. -/
theorem paced_initial (hr : r.Filled (·.lastUsed = none)) (archetype : String) (w : World G) :
    Paced r archetype .zero ⟨{ archetype, repertoire := r }, w, [], none⟩ where
  steady := steady_initial hr.distinct archetype w
  past := List.forall_mem_nil _
  ordered := .nil
  stamped p hp := hr.of_mem archetype p hp
  spaced := .nil

/-- A pattern that may be started again was started at least its cooldown ago. -/
theorem Paced.cooldown_over (h : c.Paced r archetype t) (hd : r.Distinct) (ht : t ≤ frame.now)
    (hp : p ∈ c.leaf.repertoire.available archetype) (hready : p.ready frame.now = true) {a : Start}
    (ha : a ∈ c.starts) (hname : a.name = p.name) (hq : r.get? archetype a.name = some q) :
    a.time.nanos + q.cooldown.nanos ≤ frame.now.nanos := by
  -- the stamp of the pattern is its last start, which is no earlier than the one in question
  obtain ⟨u, hlast, hau⟩ := exists_lastStart h.ordered ha
  have hused : p.lastUsed = some u := by rw [h.stamped p hp, ← hname, hlast]
  have hcooldown : q.cooldown = p.cooldown :=
    congrArg (·.2.2.1) (Repertoire.rules_of_get? hd h.steady.rules hp (hname ▸ hq))
  have hover := Pattern.ready_iff.mp hready u hused
  rw [Duration.le_iff, Duration.nanos_sub] at hover
  have hau : a.time.nanos ≤ u.nanos := hau
  have hpast : a.time.nanos ≤ frame.now.nanos := Nat.le_trans (h.past a ha) ht
  rw [hcooldown]
  omega

/-- **Every tick keeps the pace.** -/
theorem Paced.tick (h : c.Paced r archetype t) (hd : r.Distinct) (ht : t ≤ frame.now) :
    (make m (.tick frame) c).2.Paced r archetype frame.now := by
  have hstarts := h.steady.sound.starts_tick m frame c.world
  rw [h.steady.whose] at hstarts
  have hpast : ∀ a ∈ c.starts, a.time ≤ frame.now := fun a ha => Nat.le_trans (h.past a ha) ht
  -- a tick adds no start and no stamp, or one of each for the same pattern
  rcases hstarts with ⟨hnone, -, hstamps⟩ | ⟨p, hone, -, hmay, hstamps⟩
  · have hsame : (make m (.tick frame) c).2.starts = c.starts := by simp [make, hnone]
    refine ⟨h.steady.tick, ?_, ?_, fun q hq => ?_, ?_⟩
    · rwa [hsame]
    · rw [hsame]
      exact h.ordered
    · obtain ⟨o, ho, hname, hused⟩ := hstamps q hq
      rw [hsame, hused, hname]
      exact h.stamped o ho
    · rw [hsame]
      exact h.spaced
  · have hmore : (make m (.tick frame) c).2.starts = c.starts ++ [⟨p.name, frame.now⟩] := by
      simp [make, hone]
    refine ⟨h.steady.tick, ?_, ?_, fun q hq => ?_, ?_⟩
    · rw [hmore]
      intro a ha
      rcases List.mem_append.mp ha with ha | ha
      · exact hpast a ha
      · obtain rfl := List.mem_singleton.mp ha
        exact Nat.le_refl frame.now.nanos
    · rw [hmore, List.pairwise_append]
      refine ⟨h.ordered, List.pairwise_singleton _ _, fun a ha b hb => ?_⟩
      obtain rfl := List.mem_singleton.mp hb
      exact hpast a ha
    · rw [hmore, lastStart_concat]
      rcases hstamps q hq with ⟨hname, hused⟩ | ⟨hname, hbefore⟩
      · rw [if_pos hname.symm, hused]
      · rw [if_neg (Ne.symm hname)]
        exact h.stamped q hbefore
    · -- the new start is no earlier than any other, and its pattern had cooled down
      rw [hmore, Spaced, List.pairwise_append]
      refine ⟨h.spaced, List.pairwise_singleton _ _, fun a ha b hb hname q hq => ?_⟩
      obtain rfl := List.mem_singleton.mp hb
      exact h.cooldown_over hd ht hmay.mem hmay.ready ha hname hq

/-- **A reset keeps the pace**: it stamps nothing. -/
theorem Paced.reset (h : c.Paced r archetype t) : (make m .reset c).2.Paced r archetype t := by
  have hstamped : ∀ p ∈ (c.leaf.reset m).repertoire.available archetype,
      p.lastUsed = lastStart p.name c.starts := by
    intro p hp
    obtain ⟨o, ho, hop⟩ := (mem_available_reset h.steady.sound.distinct).mp hp
    split at hop
    · subst hop
      exact h.stamped o ho
    · subst hop
      exact h.stamped o ho
  exact ⟨h.steady.reset, h.past, h.ordered, hstamped, h.spaced⟩

/-- **Every run keeps the pace**, if time never goes back. -/
theorem paced_run (hr : r.Filled (·.lastUsed = none)) (archetype : String) {moves : List (Move G)}
    (hforward : Move.Forward (moves ++ [.tick frame])) (w : World G) :
    ∃ t, t ≤ frame.now ∧ Paced r archetype t
      (run m moves ⟨{ archetype, repertoire := r }, w, [], none⟩).2 := by
  refine runSteps_keeps_until (I := Paced r archetype) ?_ ?_ ?_ hforward
    (paced_initial hr archetype w)
  · intro frame t c h ht
    exact h.tick hr.distinct ht
  · intro t c h
    exact h.reset
  · intro change t c h
    exact ⟨h.steady.meanwhile change, h.past, h.ordered, h.stamped, h.spaced⟩

end Course

end Selection

namespace Node

open Selection

variable {r : Repertoire (Node G) G} {moves : List (Move G)} {frame : Frame}

/-- **A leaf of patterns is a gate.** After any run in which time never goes back, a tick starts a
pattern exactly when none is in progress and one may be started, and goes on with the one in
progress and no other; starts of the same pattern lie at least its cooldown apart; and the stamp of
every pattern is the time of its last start. The patterns of other archetypes are left alone. -/
theorem patterns_gated (hr : r.Filled (·.lastUsed = none)) (archetype : String)
    (hforward : Move.Forward (moves ++ [.tick frame])) (w : World G) :
    let c := (Course.run asMachine moves ⟨{ archetype, repertoire := r }, w, [], none⟩).2
    let o := c.leaf.tick asMachine frame c.world
    (asMachine.run moves (patternsOf archetype r) w).2 = (.patterns none c.leaf, c.world) ∧
    (Node.patterns none c.leaf).tick frame c.world = o.map (.patterns none) ∧
    ((∃ name, name ∈ c.leaf.started o.node) ↔ c.leaf.running = none ∧
      ∃ p, Repertoire.MayStart (Situation.ofBoard frame c.world.board)
        (c.leaf.repertoire.available archetype) c.world.game p) ∧
    (∀ name, c.leaf.running = some name → c.leaf.ticked o.node = [name]) ∧
    Spaced r archetype c.starts ∧
    (∀ p ∈ c.leaf.repertoire.available archetype, p.lastUsed = lastStart p.name c.starts) ∧
    ∀ a, a ≠ archetype → c.leaf.repertoire.available a = r.available a := by
  intro c o
  obtain ⟨t, -, hpaced⟩ := Course.paced_run (m := asMachine) hr archetype hforward w
  have hrun := Course.run_patterns none moves ⟨{ archetype, repertoire := r }, w, [], none⟩
  have hstarts := hpaced.steady.sound.starts_iff asMachine frame c.world
  rw [hpaced.steady.whose] at hstarts
  refine ⟨congrArg Prod.snd hrun, tick_eq frame _ c.world, hstarts, fun name hname => ?_,
    hpaced.spaced, hpaced.stamped, hpaced.steady.others⟩
  exact hpaced.steady.sound.ticked_of_running hname asMachine frame c.world

/-- A bite that is broken off, kept back by its cooldown, and started again when that is over. -/
theorem patterns_gated_bite :
    let r : Repertoire (Node Unit) Unit := .ofPatterns "wolf"
      [{ name := "bite", tree := { root := .wait (.ofMillis 5) }, cooldown := .ofMillis 10 }]
    let moves : List (Move Unit) := [.tick (.atMillis 0), .reset, .tick (.atMillis 5)]
    let c := (Course.run asMachine moves
      ⟨{ archetype := "wolf", repertoire := r }, ⟨.empty, { game := () }⟩, [], none⟩).2
    r.Filled (·.lastUsed = none) ∧ Move.Forward (moves ++ [.tick (.atMillis 10)]) ∧
    c.starts = [⟨"bite", .zero⟩] ∧ c.report = some .failure ∧
    (∃ name, name ∈ c.leaf.started (c.leaf.tick asMachine (.atMillis 10) c.world).node) ∧
    ∀ p ∈ c.leaf.repertoire.available "wolf", p.lastUsed = lastStart p.name [⟨"bite", .zero⟩] := by
  intro r moves c
  have hr : r.Filled (·.lastUsed = none) := .register .empty rfl rfl
  have hforward : Move.Forward (moves ++ [.tick (.atMillis 10)]) := by decide
  obtain ⟨-, -, hstarts, -, -, hstamped, -⟩ :=
    patterns_gated hr "wolf" hforward ⟨.empty, { game := () }⟩
  have hc : c.starts = [⟨"bite", .zero⟩] := by decide +kernel
  have hready : (c.leaf.repertoire.select "wolf"
      (Situation.ofBoard (.atMillis 10) c.world.board) c.world.game).1.isSome := by decide +kernel
  obtain ⟨p, hp⟩ := Option.isSome_iff_exists.mp hready
  refine ⟨hr, hforward, hc, by decide +kernel, ?_, hc ▸ hstamped⟩
  exact hstarts.mpr ⟨by decide +kernel, p, Repertoire.mayStart_of_select hp⟩

end Node

end Instinct
