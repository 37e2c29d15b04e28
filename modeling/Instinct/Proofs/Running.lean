import Instinct.Node.Kinds
import Instinct.Proofs.AsBuilt
import Instinct.Proofs.Calls
import Instinct.Proofs.Duality

/-! # Who is running

A node that comes with the library reports that it is running only because a child does, the
repeater without end apart. So behind every such report there is a leaf that was running in that
very tick, or a repeater without end.

* **`Machine.Marks m S`** — a machine that reports that it is running is left with `S`.
* **`Machine.Marks.composite`**, **`Machine.Marks.decorator`** — then so is a child of every node
  that does.
* **`Policy.lt_of_running`** — a parallel is undecided only while a child is.
* **`Node.Source`** — the ticks that are running of themselves.
* **`Node.running_has_source`** — there is no other running. -/

namespace Instinct

variable {N G : Type}

/-! ## (1) Counting -/

/-- Counts that leave a policy undecided are not complete. -/
theorem Policy.lt_of_running {p : Policy} {n successes failures : Nat}
    (h : p.verdict n successes failures = .running) : successes + failures < n := by
  unfold Policy.verdict at h
  by_cases hsuccess : p.required n ≤ successes
  · rw [if_pos hsuccess] at h
    cases h
  · rw [if_neg hsuccess] at h
    by_cases hfailure : n < failures + p.required n
    · rw [if_pos hfailure] at h
      cases h
    · omega

/-- Where successes and failures are not all there is, something is running. -/
theorem Status.running_mem_of_lt {statuses : List Status}
    (h : statuses.count .success + statuses.count .failure < statuses.length) :
    .running ∈ statuses := by
  have htotal := count_total statuses
  exact List.count_pos_iff.mp (by omega)

/-! ## (2) The child that is running -/

/-- **A machine that reports that it is running is left with `S`.** -/
def Machine.Marks (m : Machine N G) (S : N → Prop) : Prop :=
  ∀ f n w, (m.tick f n w).status = .running → S (m.tick f n w).node

namespace Machine.Marks

variable {m : Machine N G} {S : N → Prop} {f : Frame} {cs : List N} {w : World G}

/-! ### The loops over children -/

/-- A walk that is running is left at a child that is. -/
theorem walk (h : m.Marks S) {goOn : Status} (hgo : goOn ≠ .running)
    (hrunning : (Instinct.walk m goOn f cs w).status = .running) :
    ∃ c ∈ (Instinct.walk m goOn f cs w).children, S c := by
  induction cs generalizing w with
  | nil => exact absurd hrunning hgo
  | cons c cs ih =>
    rw [Instinct.walk] at hrunning ⊢
    dsimp only at hrunning ⊢
    by_cases hstatus : (m.tick f c w).status = goOn
    · rw [if_pos hstatus] at hrunning ⊢
      obtain ⟨c', hc', hS⟩ := ih hrunning
      exact ⟨c', List.mem_cons_of_mem _ hc', hS⟩
    · rw [if_neg hstatus] at hrunning ⊢
      -- the walk stops here, so its status is that of this child
      exact ⟨_, List.mem_cons_self, h f c w hrunning⟩

/-- If some child reported that it is running, that child was left with it. -/
theorem tickAll (h : m.Marks S) (hrunning : .running ∈ (m.tickAll f cs w).1) :
    ∃ c ∈ (m.tickAll f cs w).2.1, S c := by
  induction cs generalizing w with
  | nil => cases hrunning
  | cons c cs ih =>
    rcases List.mem_cons.mp hrunning with hstatus | hrest
    · exact ⟨_, List.mem_cons_self, h f c w hstatus.symm⟩
    · obtain ⟨c', hc', hS⟩ := ih hrest
      exact ⟨c', List.mem_cons_of_mem _ hc', hS⟩

/-- The child at the place was, if the tick reports so. -/
theorem tickAt (h : m.Marks S) (i : Nat) (hrunning : (m.tickAt f i cs w).status = .running) :
    ∃ c ∈ (m.tickAt f i cs w).node, S c := by
  induction cs generalizing i with
  | nil =>
    rw [tickAt_nil] at hrunning
    cases hrunning
  | cons c cs ih =>
    cases i with
    | zero => exact ⟨_, List.mem_cons_self, h f c w hrunning⟩
    | succ i =>
      obtain ⟨c', hc', hS⟩ := ih i hrunning
      exact ⟨c', List.mem_cons_of_mem _ hc', hS⟩

/-- A loop that repeats a child ends early only with one that is running. -/
theorem repeatChild (h : m.Marks S) {left completed : Nat} {c : N}
    (hrunning : (Decorator.repeatChild m f left completed c w).1 = .running) :
    S (Decorator.repeatChild m f left completed c w).2.2.1 := by
  induction left generalizing completed c w with
  | zero => cases hrunning
  | succ left ih =>
    rw [Decorator.repeatChild] at hrunning ⊢
    dsimp only at hrunning ⊢
    -- a round that was done is followed by others, or ends the loop without running
    cases hstatus : (m.tick f c w).status with
    | running => exact h f c w hstatus
    | success =>
      rw [hstatus] at hrunning
      exact ih hrunning
    | failure =>
      rw [hstatus] at hrunning
      exact ih hrunning

/-- **A retry that is running** has a child that is. -/
theorem retryChild (h : m.Marks S) {left failed : Nat} {c : N}
    (hrunning : (Decorator.retryChild m f left failed c w).1 = .running) :
    S (Decorator.retryChild m f left failed c w).2.2.1 := by
  induction left generalizing failed c w with
  | zero => cases hrunning
  | succ left ih =>
    rw [Decorator.retryChild] at hrunning ⊢
    dsimp only at hrunning ⊢
    cases hstatus : (m.tick f c w).status with
    | running => exact h f c w hstatus
    | success =>
      rw [hstatus] at hrunning
      cases hrunning
    | failure =>
      rw [hstatus] at hrunning
      exact ih hrunning

/-! ### Composites -/

/-- A sequence or a selector that is running is left at a child that is. -/
theorem tickInOrder (h : m.Marks S) {make : Nat → Composite} {goOn : Status}
    (hgo : goOn ≠ .running) {cursor : Nat}
    (hrunning : (Composite.tickInOrder m make goOn f cursor cs w).status = .running) :
    ∃ c ∈ (Composite.tickInOrder m make goOn f cursor cs w).node.2, S c := by
  unfold Composite.tickInOrder at hrunning ⊢
  dsimp only at hrunning ⊢
  by_cases hstatus : (Instinct.walk m goOn f (cs.drop cursor) w).status = .running
  · rw [if_pos hstatus]
    obtain ⟨c, hc, hS⟩ := h.walk hgo hstatus
    exact ⟨c, List.mem_append_right _ hc, hS⟩
  · rw [if_neg hstatus] at hrunning
    exact absurd hrunning hstatus

/-- A parallel that is running is undecided, and so one of its children is running. -/
theorem tickParallel (h : m.Marks S) {policy : Policy}
    (hrunning : (Composite.tickParallel m policy f cs w).status = .running) :
    ∃ c ∈ (Composite.tickParallel m policy f cs w).node.2, S c := by
  unfold Composite.tickParallel at hrunning ⊢
  dsimp only at hrunning ⊢
  cases hverdict : policy.verdict cs.length ((m.tickAll f cs w).1.count .success)
    ((m.tickAll f cs w).1.count .failure) with
  | running =>
    -- the verdict counts one status for each child, so one of them is neither
    have hlt := Policy.lt_of_running hverdict
    rw [← m.length_tickAll f cs w] at hlt
    exact h.tickAll (Status.running_mem_of_lt hlt)
  | success =>
    rw [hverdict] at hrunning
    cases hrunning
  | failure =>
    rw [hverdict] at hrunning
    cases hrunning

/-- A composite that draws is running as the child it has chosen. -/
theorem tickChosen (h : m.Marks S) {make : Draws → Composite} {pick : Generator → Nat} {d : Draws}
    (hrunning : (Composite.tickChosen m make pick f d cs w).status = .running) :
    ∃ c ∈ (Composite.tickChosen m make pick f d cs w).node.2, S c := by
  unfold Composite.tickChosen at hrunning ⊢
  by_cases hempty : cs.isEmpty = true
  · rw [if_pos hempty] at hrunning
    cases hrunning
  · rw [if_neg hempty] at hrunning ⊢
    exact h.tickAt _ hrunning

/-- **A composite is running** only if a child is. -/
theorem composite (h : m.Marks S) {c : Composite} (hrunning : (c.tick m f cs w).status = .running) :
    ∃ c' ∈ (c.tick m f cs w).node.2, S c' := by
  cases c with
  | sequence cursor => exact h.tickInOrder (by decide) hrunning
  | selector cursor => exact h.tickInOrder (by decide) hrunning
  | parallel policy => exact h.tickParallel hrunning
  | random d => exact h.tickChosen hrunning
  | weighted ws d => exact h.tickChosen hrunning

/-! ### Decorators -/

/-- A decorator that is running has a child that is, unless it repeats without end. -/
theorem tickAround (h : m.Marks S) {d : Decorator G} (hd : d.asBuilt ≠ .repeater none 0) {c : N}
    (hrunning : (d.tickAround m f c w).status = .running) :
    S (d.tickAround m f c w).node.2 := by
  cases d with
  | inverter =>
    refine h f c w ?_
    have hinvert : (m.tick f c w).status.invert = .running := hrunning
    rw [← Status.invert_invert (m.tick f c w).status, hinvert]
    rfl
  | succeeder => cases hrunning
  | failer => cases hrunning
  | repeater times completed =>
    cases times with
    -- the one decorator that is running over a child that is done
    | none => exact absurd rfl hd
    | some times => exact h.repeatChild hrunning
  | retry attempts failed => exact h.retryChild hrunning
  | timeout limit started =>
    unfold Decorator.tickAround at hrunning ⊢
    dsimp only at hrunning ⊢
    by_cases hover : limit < f.elapsedSince (started.getD f.now)
    · rw [if_pos hover] at hrunning
      -- where the child is not ticked the node fails
      cases hrunning
    · rw [if_neg hover] at hrunning ⊢
      exact h f c w hrunning
  | cooldown duration finished =>
    unfold Decorator.tickAround at hrunning ⊢
    dsimp only at hrunning ⊢
    by_cases hcool : Decorator.coolingDown duration finished f.now = true
    · rw [if_pos hcool] at hrunning
      cases hrunning
    · rw [if_neg hcool] at hrunning ⊢
      exact h f c w hrunning
  | conditional guard =>
    unfold Decorator.tickAround at hrunning ⊢
    dsimp only at hrunning ⊢
    by_cases hholds : (guard f w.board w.game).1 = true
    · rw [if_pos hholds] at hrunning ⊢
      exact h f c _ hrunning
    · rw [if_neg hholds] at hrunning
      cases hrunning

/-- **A decorator is running** only if its child is, a repeater without end apart. -/
theorem decorator (h : m.Marks S) {d : Decorator G} (hd : d.asBuilt ≠ .repeater none 0)
    {child : Option N} (hrunning : (d.tick m f child w).status = .running) :
    ∃ c ∈ (d.tick m f child w).node.2, S c := by
  cases child with
  | none => cases d <;> cases hrunning
  | some c => exact ⟨_, rfl, h.tickAround hd hrunning⟩

end Machine.Marks

/-- **A machine that is watched** and reports that it is running has a tick on its record that
did. -/
theorem Machine.marks_watched (m : Machine N G) :
    m.watched.Marks fun n => ∃ b ∈ n.2, (b.outcome m).status = .running := by
  intro f n w hrunning
  exact ⟨⟨f, n.1, w⟩, List.mem_append_right _ (List.mem_singleton_self _), hrunning⟩

section Children

variable {m : Machine N G} {f : Frame} {w : World G}

/-- **Behind a composite that is running** there is a call of a child that reported so. -/
theorem Composite.exists_call {c : Composite} {cs : List N}
    (hrunning : (c.tick m f cs w).status = .running) :
    ∃ b ∈ c.calls m f cs w, (b.outcome m).status = .running := by
  rw [← c.status_watched cs] at hrunning
  obtain ⟨n, hn, b, hb, hstatus⟩ := m.marks_watched.composite hrunning
  exact ⟨b, List.mem_flatMap.mpr ⟨n, hn, hb⟩, hstatus⟩

/-- **Behind a decorator that is running** there is one too, unless it repeats without end. -/
theorem Decorator.exists_call {d : Decorator G} (hd : d.asBuilt ≠ .repeater none 0)
    {child : Option N} (hrunning : (d.tick m f child w).status = .running) :
    ∃ b ∈ d.calls m f child w, (b.outcome m).status = .running := by
  rw [← d.status_watched child] at hrunning
  obtain ⟨n, hn, b, hb, hstatus⟩ := m.marks_watched.decorator hd hrunning
  exact ⟨b, List.mem_flatMap.mpr ⟨n, Option.mem_toList.mpr hn, hb⟩, hstatus⟩

end Children

/-! ## (3) Where running comes from -/

/-- **A leaf that never runs**: it does not wait, does not report that it is running always, and is
no action that ever does. -/
def Leaf.Brief : Leaf G → Prop
  | action deed => ∀ f b g, (deed f b g).1 ≠ .running
  | wait _ _ => False
  | fixed status => status ≠ .running
  | _ => True

/-- Whether a leaf is brief does not depend on how far it has come. -/
theorem Leaf.brief_asBuilt (l : Leaf G) : l.asBuilt.Brief ↔ l.Brief := by
  cases l <;> rfl

/-- **A brief leaf is done** after every tick. -/
theorem Leaf.Brief.done {l : Leaf G} (h : l.Brief) (f : Frame) (w : World G) :
    (l.tick f w).status ≠ .running := by
  cases l with
  | action deed => exact h f w.board w.game
  | condition test =>
    show Status.ofBool (test f w.board w.game).1 ≠ .running
    cases (test f w.board w.game).1 <;> decide
  | wait duration started => exact h.elim
  | fixed status => exact h
  | log message level => exact Status.noConfusion
  | setValue key source => cases source <;> exact Status.noConfusion
  | clearValue key => exact Status.noConfusion

namespace Node

variable {n : Node G} {a : Call (Node G) G}

/-- **A tick that is running of itself**: of a leaf that reports so, or of a repeater without end
around a child. -/
inductive Source : Call (Node G) G → Prop
  | leaf {f title l w} (running : (l.tick f w).status = .running) : Source ⟨f, .leaf title l, w⟩
  | forever {f title completed c w} :
      Source ⟨f, .decorator title (.repeater none completed) (some c), w⟩

/-- **A node that never runs of itself.** -/
def Brief : Node G → Prop
  | decorator _ d _ => d.asBuilt ≠ .repeater none 0
  | leaf _ l => l.Brief
  | _ => True

/-- Ticks and resets turn no node into one of another make. -/
theorem kept_stock : Kept (Stock : Node G → Prop) where
  tick m f w n hn := by cases n <;> exact hn
  reset m n hn := by cases n <;> exact hn

/-- A node that never runs of itself stays so. -/
theorem kept_brief : Kept (Brief : Node G → Prop) where
  tick m f w n hn := by
    cases n with
    | decorator title d child =>
      show (d.tick m f child w).node.1.asBuilt ≠ .repeater none 0
      rw [Decorator.asBuilt_tick]
      exact hn
    | leaf title l =>
      show (l.tick f w).node.Brief
      rw [← Leaf.brief_asBuilt, Leaf.asBuilt_tick, Leaf.brief_asBuilt]
      exact hn
    | _ => exact trivial
  reset m n hn := by
    cases n with
    | decorator title d child =>
      show d.reset.asBuilt ≠ .repeater none 0
      rw [Decorator.asBuilt_reset]
      exact hn
    | leaf title l =>
      show l.reset.Brief
      rw [Leaf.reset_eq_asBuilt, Leaf.brief_asBuilt]
      exact hn
    | _ => exact trivial

/-- **One level**: a node that is running is so of itself, or has just ticked one that is. -/
theorem source_or_exists_call (ha : a.node.Stock)
    (hrunning : (a.outcome asMachine).status = .running) :
    Source a ∨ ∃ b ∈ calls a, (b.outcome asMachine).status = .running := by
  obtain ⟨f, n, w⟩ := a
  have hlayer : (tickLayer asMachine f n w).status = .running := tick_eq f n w ▸ hrunning
  cases n with
  | composite title c cs => exact .inr (Composite.exists_call hlayer)
  | decorator title d child =>
    -- a repeater without end is a source itself; behind any other decorator there is its child
    by_cases hd : d.asBuilt = .repeater none 0
    · cases d with
      | repeater times completed =>
        obtain rfl : times = none := by
          injection hd
        cases child with
        | none => cases hlayer
        | some c => exact .inl .forever
      | _ => cases hd
    · exact .inr (Decorator.exists_call hd hlayer)
  | leaf title l => exact .inl (.leaf hlayer)
  | patterns title s => exact ha.elim
  | custom c cs => exact ha.elim

/-- **All levels.** -/
theorem exists_source (ha : a.node.Everywhere Stock)
    (hrunning : (a.outcome asMachine).status = .running) : ∃ b, Within a b ∧ Source b := by
  -- from a node that is running to one below it that is, until there is nothing below
  induction hlevels : a.node.levels using Nat.strongRecOn generalizing a with
  | ind k ih =>
    rcases source_or_exists_call (everywhere_iff.mp ha).1 hrunning with hsource | ⟨b, hb, hbelow⟩
    · exact ⟨a, .refl, hsource⟩
    · have hlt := levels_lt_of_mem_calls hb
      rw [hlevels] at hlt
      obtain ⟨c, hc, hsource⟩ := ih _ hlt (everywhere_of_mem_calls kept_stock ha hb) hbelow rfl
      exact ⟨c, .head hb hc, hsource⟩

/-- A tree without sources is done with every tick. -/
theorem done_of_brief (hn : n.Everywhere Stock) (hbrief : n.Everywhere Brief) (f : Frame)
    (w : World G) : (n.tick f w).status ≠ .running := by
  intro hrunning
  obtain ⟨b, hb, hsource⟩ := exists_source (a := ⟨f, n, w⟩) hn hrunning
  -- what is ticked on the way is as brief as the tree, so it cannot be a source
  have hbrief : b.node.Brief := (everywhere_iff.mp (hb.everywhere kept_brief hbrief)).1
  cases hsource with
  | leaf hstatus => exact hbrief.done _ _ hstatus
  | forever => exact hbrief rfl

/-- **No running out of thin air.** Take a tree of nodes that come with the library, in whatever
state. A tick that reports that it is running has ticked a leaf that did, or a repeater without end
that has a child. So a tree in which nothing can be running of itself is done with every tick of
every run. -/
theorem running_has_source (hn : n.Everywhere Stock) :
    (∀ f w, (n.tick f w).status = .running → ∃ b, Within ⟨f, n, w⟩ b ∧ Source b) ∧
    (n.Everywhere Brief → ∀ moves w, ∀ s ∈ (asMachine.run moves n w).1, s ≠ .running) := by
  refine ⟨fun f w => exists_source (a := ⟨f, n, w⟩) hn, fun hbrief moves w => ?_⟩
  unfold Machine.run
  -- no tick of a brief tree is running, and what it leaves is brief again
  induction moves generalizing n w with
  | nil => exact List.forall_mem_nil _
  | cons move moves ih =>
    rw [runSteps_cons]
    cases move with
    | tick frame =>
      have hrest := ih (everywhere_tick kept_stock hn frame w)
        (everywhere_tick kept_brief hbrief frame w) (n.tick frame w).world
      exact List.forall_mem_cons.mpr ⟨done_of_brief hn hbrief frame w, hrest⟩
    | reset =>
      exact ih (everywhere_reset_of_kept kept_stock hn)
        (everywhere_reset_of_kept kept_brief hbrief) (w.mapGame n.onReset)
    | meanwhile change => exact ih hn hbrief (change w)

/-- A parallel that waits for its second child, and a tree that is never running. -/
theorem running_has_source_parallel :
    let n : Node Unit := .parallel .requireAll [.fixed .success, .wait (.ofMillis 5)]
    let brief : Node Unit := .retry 3 (some (.sequence [.fixed .success, .fixed .failure]))
    let w : World Unit := ⟨.empty, { game := () }⟩
    n.Everywhere Stock ∧ (n.tick (.atMillis 0) w).status = .running ∧
    (∃ b, Within ⟨.atMillis 0, n, w⟩ b ∧ Source b) ∧
    brief.Everywhere Stock ∧ brief.Everywhere Brief ∧
    ∀ s ∈ (asMachine.run [.tick (.atMillis 0), .tick (.atMillis 5)] brief w).1, s ≠ .running := by
  intro n brief w
  have hn : n.Everywhere Stock := by simp [n, parallel, fixed, wait, Stock]
  have hstock : brief.Everywhere Stock := by simp [brief, retry, sequence, fixed, Stock]
  have hbrief : brief.Everywhere Brief := by
    simp [brief, retry, sequence, fixed, Brief, Leaf.Brief, Decorator.retrying, Decorator.asBuilt]
  have hrunning : (n.tick (.atMillis 0) w).status = .running := rfl
  exact ⟨hn, hrunning, (running_has_source hn).1 _ w hrunning, hstock, hbrief,
    (running_has_source hstock).2 hbrief _ w⟩

end Node

end Instinct
