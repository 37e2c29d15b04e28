import Instinct.Proofs.Logbook

/-! # Repeaters and retries over a whole run

Both run their child several times within one tick, each time from a reset, and suspend when it is
running. A repeater goes on whatever the child comes to, a retry only if it fails; the rounds that
are left bound the loop. What the child came to in earlier ticks is remembered as a number, and over
the ticks since the node was last done or reset this number is the count of what the child reported.

* **`Use.tally`** — how often a child reported something.
* **`Rounds`** — what such a loop does to the child, and why it ends; **`Rounds.tally_none`**,
  **`Rounds.tally_some`** — how many rounds it takes.
* **`Decorator.rounds_repeatChild`**, **`Decorator.rounds_retryChild`** — the two loops.
* **`Decorator.repeater_rounds`**, **`Decorator.retry_rounds`** — whole runs. -/

namespace Instinct

variable {N G : Type} {m : Machine N G}

/-! ## (1) Rounds -/

/-- **How often a child reported** something of a kind. -/
def Use.tally (m : Machine N G) (p : Status → Bool) (uses : List (Use N G)) : Nat :=
  (reports m uses).countP p

/-- Nothing was reported. -/
@[simp] theorem Use.tally_nil (p : Status → Bool) : tally m p [] = 0 := rfl

/-- A tick is counted if it reported what is asked for. -/
@[simp] theorem Use.tally_tick (p : Status → Bool) (call : Call N G) (uses : List (Use N G)) :
    tally m p (tick call :: uses) =
      tally m p uses + if p (call.outcome m).status = true then 1 else 0 := List.countP_cons

/-- A reset reports nothing. -/
@[simp] theorem Use.tally_reset (p : Status → Bool) (uses : List (Use N G)) :
    tally m p (reset :: uses) = tally m p uses := rfl

/-- What is done in two parts is counted in both. -/
@[simp] theorem Use.tally_append (p : Status → Bool) (uses uses' : List (Use N G)) :
    tally m p (uses ++ uses') = tally m p uses + tally m p uses' := by
  simp [tally]

/-- **The rounds of a child**, no more than some number: each is a tick after which the child is
reset, and the next one follows if it reported `again`. The last argument is what ended them before
their number was used up. -/
inductive Rounds (m : Machine N G) (again : Status → Bool) :
    Nat → List (Use N G) → Option Status → Prop
  /-- No round is left. -/
  | exhausted : Rounds m again 0 [] none
  /-- The child is running. -/
  | suspended {left} (call : Call N G) (running : (call.outcome m).status = .running) :
      Rounds m again (left + 1) [.tick call] (some .running)
  /-- The child was done, and there is no reason for another round. -/
  | settled {left} (call : Call N G) (done : (call.outcome m).status ≠ .running)
      (enough : again (call.outcome m).status = false) :
      Rounds m again (left + 1) [.tick call, .reset] (some (call.outcome m).status)
  /-- The child was done, and another round follows. -/
  | round {left uses verdict} (call : Call N G) (done : (call.outcome m).status ≠ .running)
      (more : again (call.outcome m).status = true) (rest : Rounds m again left uses verdict) :
      Rounds m again (left + 1) (.tick call :: .reset :: uses) verdict

namespace Rounds

variable {again : Status → Bool} {left : Nat} {uses : List (Use N G)} {verdict : Option Status}
  {s : Status}

/-- **Between two rounds the child is reset.** -/
theorem tidy (h : Rounds m again left uses verdict) : Tidy m uses := by
  induction h with
  | exhausted => exact trivial
  | suspended call running =>
    refine ⟨fun hdone => ?_, trivial⟩
    rw [running] at hdone
    cases hdone
  | settled call => exact ⟨fun _ => rfl, trivial⟩
  | round call done more rest ih => exact ⟨fun _ => rfl, ih⟩

/-- Each round is one tick of the child. -/
theorem length_reports_le (h : Rounds m again left uses verdict) :
    (Use.reports m uses).length ≤ left := by
  induction h with
  | exhausted => exact Nat.le_refl 0
  | suspended => exact Nat.succ_le_succ (Nat.zero_le _)
  | settled => exact Nat.succ_le_succ (Nat.zero_le _)
  | round call done more rest ih => exact Nat.succ_le_succ ih

/-- **If nothing else ended them**, all rounds were taken, each for the same reason. -/
theorem tally_none (h : Rounds m again left uses none) : Use.tally m again uses = left := by
  generalize hverdict : (none : Option Status) = verdict at h
  induction h with
  | exhausted => rfl
  | suspended => cases hverdict
  | settled => cases hverdict
  | round call done more rest ih =>
    rw [Use.tally_tick, Use.tally_reset, ih hverdict, if_pos more]

/-- **If something else did**, there was at least one round left, and it was the last report. -/
theorem tally_some (h : Rounds m again left uses (some s)) (hagain : again .running = false) :
    Use.tally m again uses < left ∧ again s = false ∧
      (Use.reports m uses).getLast? = some s := by
  generalize hverdict : some s = verdict at h
  induction h with
  | exhausted => cases hverdict
  | suspended call running =>
    obtain rfl := Option.some.inj hverdict
    simp [running, hagain]
  | settled call done enough =>
    obtain rfl := Option.some.inj hverdict
    simp [enough]
  | round call done more rest ih =>
    obtain ⟨htally, henough, hlast⟩ := ih hverdict
    -- the first round is one more of those that are counted
    refine ⟨?_, henough, ?_⟩
    · rw [Use.tally_tick, Use.tally_reset, if_pos more]
      exact Nat.succ_lt_succ htally
    · rw [Use.reports_tick, Use.reports_reset, List.getLast?_cons, hlast, ← hverdict]
      rfl

/-- All reports but the one that ended the rounds were a reason for another round. -/
theorem again_of_mem (h : Rounds m again left uses verdict) :
    ∀ s ∈ Use.reports m uses, again s = true ∨ verdict = some s := by
  induction h with
  | exhausted => exact List.forall_mem_nil _
  | suspended call running =>
    intro s hs
    obtain rfl := List.mem_singleton.mp hs
    exact .inr (congrArg some running.symm)
  | settled call done enough =>
    intro s hs
    obtain rfl := List.mem_singleton.mp hs
    exact .inr rfl
  | round call done more rest ih => exact List.forall_mem_cons.mpr ⟨.inl more, ih⟩

/-- No more of them were a reason for another round than there were rounds. -/
theorem tally_le (h : Rounds m again left uses verdict) (hagain : again .running = false) :
    Use.tally m again uses ≤ left := by
  cases verdict with
  | none => exact Nat.le_of_eq h.tally_none
  | some s => exact Nat.le_of_lt (h.tally_some hagain).1

/-- **Nothing else ended them** just if every round that was left was taken. -/
theorem eq_none_iff (h : Rounds m again left uses verdict) (hagain : again .running = false) :
    verdict = none ↔ Use.tally m again uses = left := by
  constructor
  · rintro rfl
    exact h.tally_none
  · intro htally
    cases verdict with
    | none => rfl
    | some s => exact absurd htally (Nat.ne_of_lt (h.tally_some hagain).1)

/-- **A running child ended them** just if that is what it reported last. -/
theorem eq_some_running_iff (h : Rounds m again left uses verdict)
    (hagain : again .running = false) :
    verdict = some .running ↔ (Use.reports m uses).getLast? = some .running := by
  constructor
  · rintro rfl
    exact (h.tally_some hagain).2.2
  · intro hlast
    rcases h.again_of_mem _ (List.mem_of_getLast? hlast) with hmore | hverdict
    · rw [hagain] at hmore
      cases hmore
    · exact hverdict

/-- Where every child that is done gets another round, only a running one ends them early. -/
theorem eq_running (h : Rounds m Status.isDone left uses (some s)) : s = .running := by
  obtain ⟨-, henough, -⟩ := h.tally_some rfl
  cases s with
  | running => rfl
  | success => cases henough
  | failure => cases henough

end Rounds

/-! ## (2) The loops -/

namespace Decorator

variable {f : Frame} {w : World G}

/-- **The loop of a repeater** goes on until every round is taken or the child is running. -/
theorem rounds_repeatChild (m : Machine N G) (f : Frame) (left completed : Nat)
    (n : N × List (Use N G)) (w : World G) :
    let r := repeatChild m.logged f left completed n w
    ∃ uses verdict, r.2.2.1.2 = n.2 ++ uses ∧ Rounds m Status.isDone left uses verdict ∧
      r.1 = verdict.getD .success ∧
      r.2.1 = if r.1 = .running then completed + Use.tally m Status.isDone uses else 0 := by
  induction left generalizing completed n w with
  | zero => exact ⟨[], none, (List.append_nil _).symm, .exhausted, rfl, rfl⟩
  | succ left ih =>
    let call : Call N G := ⟨f, n.1, w⟩
    rw [repeatChild, m.tick_logged]
    dsimp only
    by_cases hrunning : (call.outcome m).status.isRunning = true
    · have hstatus : (call.outcome m).status = .running := by
        cases hs : (call.outcome m).status <;> simp [hs] at hrunning ⊢
      rw [if_pos hrunning]
      exact ⟨[.tick call], some .running, rfl, .suspended call hstatus, rfl,
        by simp [hstatus, Status.isDone]⟩
    · have hdone : (call.outcome m).status ≠ .running := by
        intro heq
        rw [heq] at hrunning
        exact hrunning rfl
      have hmore : (call.outcome m).status.isDone = true := Status.isDone_of_ne hdone
      rw [if_neg hrunning]
      -- the child is reset, and the rest of the loop goes on from there
      obtain ⟨uses, verdict, hlog, hrounds, hstatus, hcount⟩ := ih (completed + 1) _ _
      refine ⟨.tick call :: .reset :: uses, verdict, ?_, .round call hdone hmore hrounds, hstatus,
        hcount.trans ?_⟩
      · rw [hlog]
        simp [call]
      · rw [Use.tally_tick, Use.tally_reset, if_pos hmore, Nat.add_right_comm, Nat.add_assoc]

/-- **The loop of a retry** goes on until every round is taken or the child has not failed. -/
theorem rounds_retryChild (m : Machine N G) (f : Frame) (left failed : Nat)
    (n : N × List (Use N G)) (w : World G) :
    let r := retryChild m.logged f left failed n w
    ∃ uses verdict, r.2.2.1.2 = n.2 ++ uses ∧ Rounds m (· = .failure) left uses verdict ∧
      r.1 = verdict.getD .failure ∧
      r.2.1 = if r.1 = .running then failed + Use.tally m (· = .failure) uses else 0 := by
  induction left generalizing failed n w with
  | zero => exact ⟨[], none, (List.append_nil _).symm, .exhausted, rfl, rfl⟩
  | succ left ih =>
    let call : Call N G := ⟨f, n.1, w⟩
    rw [retryChild, m.tick_logged]
    dsimp only
    -- a success ends the loop, and only a failure is another round
    cases hstatus : (call.outcome m).status with
    | running =>
      exact ⟨[.tick call], some .running, rfl, .suspended call hstatus, rfl,
        by simp [Use.tally, hstatus]⟩
    | success =>
      have hrounds : Rounds m (· = .failure) (left + 1) [.tick call, .reset] (some .success) := by
        rw [← hstatus]
        exact .settled call (by simp [hstatus]) (by simp [hstatus])
      exact ⟨[.tick call, .reset], some .success, by simp [call], hrounds, rfl, rfl⟩
    | failure =>
      obtain ⟨uses, verdict, hlog, hrounds, hverdict, hcount⟩ := ih (failed + 1) _ _
      -- the rounds that follow start from one failure more
      have hmore : decide ((call.outcome m).status = .failure) = true := by simp [hstatus]
      refine ⟨.tick call :: .reset :: uses, verdict, ?_,
        .round call (by simp [hstatus]) hmore hrounds, hverdict, hcount.trans ?_⟩
      · rw [hlog]
        simp [call]
      · rw [Use.tally_tick, Use.tally_reset, if_pos hmore, Nat.add_right_comm, Nat.add_assoc]

/-- **A decorator that counts rounds** and takes as many as make up `bound` with those counted. If
nothing else ended them it reports `otherwise`, and the count starts anew unless the child is
running. -/
structure Counts (m : Machine N G) (again : Status → Bool) (otherwise : Status) (bound : Nat)
    (make : Nat → Decorator G) : Prop where
  running : again .running = false
  done : otherwise ≠ .running
  reset : ∀ count, (make count).reset = make 0
  tick : ∀ count f c w,
    let now := (make count).uses m f (some c) w
    let o := (make count).tick m f (some c) w
    ∃ verdict child, Rounds m again (bound - count) now verdict ∧
      o.status = verdict.getD otherwise ∧
      o.node =
        (make (if o.status = .running then count + Use.tally m again now else 0), some child)

/-- What a tick does is what it does to a child that keeps a log. -/
theorem tick_eq_logged (m : Machine N G) (d : Decorator G) (f : Frame) (c : N) (w : World G) :
    d.tick m f (some c) w =
      (d.tick m.logged f (some (Machine.unlogged c)) w).map (Prod.map id (Option.map Prod.fst)) :=
  m.embeds_logged.decorator f d (some (Machine.unlogged c)) w

/-- **A repeater counts** whatever its child concludes with. -/
theorem counts_repeater (m : Machine N G) (n : Nat) :
    Counts m Status.isDone .success n (repeater (some n)) where
  running := rfl
  done := nofun
  reset _ := rfl
  tick count f c w := by
    obtain ⟨uses, verdict, hlog, hrounds, hstatus, hcount⟩ :=
      rounds_repeatChild m f (n - count) count (Machine.unlogged c) w
    have huses : (repeater (some n) count).uses m f (some c) w = uses :=
      (Machine.logOf_some _).trans hlog
    rw [huses, tick_eq_logged]
    exact ⟨verdict, _, hrounds, hstatus, Prod.ext (congrArg (repeater (some n)) hcount) rfl⟩

/-- **A retry counts** the failures of its child. -/
theorem counts_retry (m : Machine N G) (attempts : Nat) :
    Counts m (· = .failure) .failure attempts (retry attempts) where
  running := rfl
  done := nofun
  reset _ := rfl
  tick count f c w := by
    obtain ⟨uses, verdict, hlog, hrounds, hstatus, hcount⟩ :=
      rounds_retryChild m f (attempts - count) count (Machine.unlogged c) w
    have huses : (retry attempts count).uses m f (some c) w = uses :=
      (Machine.logOf_some _).trans hlog
    rw [huses, tick_eq_logged]
    exact ⟨verdict, _, hrounds, hstatus, Prod.ext (congrArg (retry attempts) hcount) rfl⟩

end Decorator

/-! ## (3) Whole runs -/

namespace Decorator

variable {again : Status → Bool} {otherwise : Status} {bound : Nat} {make : Nat → Decorator G}
  {past : List (Beat N G)} {s : Decorator G × Option N} {f : Frame} {w : World G}

/-- **What is left of a decorator that counts rounds** after the ticks of a spell: it has counted
what the child reported in them, and rounds are left over. -/
structure Counting (m : Machine N G) (again : Status → Bool) (bound : Nat)
    (make : Nat → Decorator G) (past : List (Beat N G)) (s : Decorator G × Option N) : Prop where
  state : ∃ child, s = (make (Use.tally m again (past.flatMap Beat.uses)), some child)
  left : past = [] ∨ Use.tally m again (past.flatMap Beat.uses) < bound
  tidy : Tidy m (past.flatMap Beat.uses)
  reports : ∀ r ∈ Use.reports m (past.flatMap Beat.uses), again r = true ∨ r = .running

namespace Counting

/-- At first nothing is counted. -/
theorem initial (m : Machine N G) (again : Status → Bool) (bound : Nat) (make : Nat → Decorator G)
    (c : N) : Counting m again bound make [] (make 0, some c) where
  state := ⟨c, rfl⟩
  left := .inl rfl
  tidy := trivial
  reports := List.forall_mem_nil _

/-- No more is counted than there are rounds. -/
theorem tally_le (h : Counting m again bound make past s) :
    Use.tally m again (past.flatMap Beat.uses) ≤ bound := by
  rcases h.left with rfl | hleft
  · exact Nat.zero_le bound
  · exact Nat.le_of_lt hleft

end Counting

namespace Counts

/-- **A tick that is running** counts its rounds, which are fewer than there are left. -/
theorem tick_running (hd : Counts m again otherwise bound make)
    (h : Counting m again bound make past s)
    (hrunning : (m.decorator.tick f s w).status = .running) :
    Counting m again bound make (past ++ [tickBeat m f s w]) (m.decorator.tick f s w).node := by
  obtain ⟨child, hs⟩ := h.state
  let count := Use.tally m again (past.flatMap Beat.uses)
  let now := (make count).uses m f (some child) w
  subst hs
  obtain ⟨verdict, child', hrounds, hstatus, hnode⟩ := hd.tick count f child w
  -- a tick is running only if the child ended its rounds by running
  have hstatus' : ((make count).tick m f (some child) w).status = .running := hrunning
  rw [if_pos hstatus'] at hnode
  have hverdict : verdict = some .running := by
    cases verdict with
    | none => exact absurd (hstatus.symm.trans hrunning) hd.done
    | some r => exact congrArg some (hstatus.symm.trans hrunning)
  subst hverdict
  obtain ⟨htally, -, -⟩ := hrounds.tally_some hd.running
  have huses : (past ++ [tickBeat m f (make count, some child) w]).flatMap Beat.uses =
      past.flatMap Beat.uses ++ now := by
    rw [List.flatMap_append, List.flatMap_singleton]
    rfl
  refine ⟨⟨child', ?_⟩, .inr ?_, ?_, ?_⟩
  · rw [huses, Use.tally_append]
    exact hnode
  · rw [huses, Use.tally_append]
    exact Nat.add_lt_of_lt_sub' htally
  · rw [huses]
    exact h.tidy.append hrounds.tidy
  · rw [huses, Use.reports_append]
    refine List.forall_mem_append.mpr ⟨h.reports, fun r hr => ?_⟩
    refine (hrounds.again_of_mem r hr).imp_right fun heq => ?_
    exact (Option.some.inj heq).symm

/-- **After any other tick** the count starts anew. -/
theorem tick_ended (hd : Counts m again otherwise bound make)
    (h : Counting m again bound make past s)
    (hended : (m.decorator.tick f s w).status ≠ .running) :
    Counting m again bound make [] (m.decorator.tick f s w).node := by
  obtain ⟨child, hs⟩ := h.state
  let count := Use.tally m again (past.flatMap Beat.uses)
  subst hs
  obtain ⟨verdict, child', -, -, hnode⟩ := hd.tick count f child w
  -- the count is taken back as soon as the decorator is done
  have hended' : ((make count).tick m f (some child) w).status ≠ .running := hended
  rw [if_neg hended'] at hnode
  have hstate : (m.decorator.tick f (make count, some child) w).node = (make 0, some child') :=
    hnode
  rw [hstate]
  exact .initial m again bound make child'

/-- **So it does after a reset.** -/
theorem reset_anew (hd : Counts m again otherwise bound make)
    (h : Counting m again bound make past s) :
    Counting m again bound make [] (m.decorator.reset s) := by
  obtain ⟨child, rfl⟩ := h.state
  have hstate : m.decorator.reset (make (Use.tally m again (past.flatMap Beat.uses)), some child) =
      (make 0, some (m.reset child)) := Prod.ext (hd.reset _) rfl
  rw [hstate]
  exact .initial m again bound make (m.reset child)

/-- **A run of the decorator** keeps count of what the child reports. -/
theorem spell_counting (hd : Counts m again otherwise bound make) (c : N) (moves : List (Move G))
    (w : World G) :
    Counting m again bound make (spell (beats m moves (make 0, some c) w).1)
      (beats m moves (make 0, some c) w).2.1 :=
  spell_keeps (I := Counting m again bound make)
    (fun _ _ _ _ h hrunning => hd.tick_running h hrunning)
    (fun _ _ _ _ h hended => hd.tick_ended h hended) (fun _ _ h => hd.reset_anew h)
    (.initial m again bound make c) moves w

/-- **One more tick after some in a spell**: what has been counted and what this tick adds to it. -/
theorem next (hd : Counts m again otherwise bound make) {child : N}
    (h : Counting m again bound make past
      (make (Use.tally m again (past.flatMap Beat.uses)), some child)) (f : Frame) (w : World G) :
    let uses := past.flatMap Beat.uses
    let now := (make (Use.tally m again uses)).uses m f (some child) w
    let o := (make (Use.tally m again uses)).tick m f (some child) w
    ∃ verdict, Rounds m again (bound - Use.tally m again uses) now verdict ∧
      o.status = verdict.getD otherwise ∧
      (o.status = .running ↔ (Use.reports m now).getLast? = some .running) ∧
      (verdict = none ↔ Use.tally m again (uses ++ now) = bound) ∧
      Use.tally m again (uses ++ now) ≤ bound ∧
      o.node.1 = make (if o.status = .running then Use.tally m again (uses ++ now) else 0) := by
  intro uses now o
  obtain ⟨verdict, child', hrounds, hstatus, hnode⟩ := hd.tick (Use.tally m again uses) f child w
  have hpast : Use.tally m again uses ≤ bound := h.tally_le
  have hnow : Use.tally m again now ≤ bound - Use.tally m again uses := hrounds.tally_le hd.running
  -- the rounds of this tick are all there were left exactly if nothing else ended them
  have hall : verdict = none ↔ Use.tally m again now = bound - Use.tally m again uses :=
    hrounds.eq_none_iff hd.running
  refine ⟨verdict, hrounds, hstatus, ?_, ?_, ?_, ?_⟩
  · rw [← hrounds.eq_some_running_iff hd.running, hstatus]
    cases verdict with
    | none => simp [hd.done]
    | some r => simp
  · rw [hall, Use.tally_append]
    omega
  · rw [Use.tally_append]
    omega
  · rw [Use.tally_append]
    exact congrArg Prod.fst hnode

end Counts

/-! ### Repeaters without end -/

section Endless

variable {c : N} {ended : Nat}

/-- A repeater without end leaves its child alone while that is running. -/
theorem tick_endless_running (h : (m.tick f c w).status.isRunning = true) :
    (repeater none ended).tick m f (some c) w =
      ⟨.running, (repeater none ended, some (m.tick f c w).node), (m.tick f c w).world⟩ := by
  rw [tick, tickAround]
  dsimp only
  rw [if_pos h]
  rfl

/-- A child that is done is counted and reset. -/
theorem tick_endless_done (h : ¬ (m.tick f c w).status.isRunning = true) :
    (repeater none ended).tick m f (some c) w =
      ⟨.running,
        (repeater none (min (ended + 1) largestCount), some (m.reset (m.tick f c w).node)),
        (m.tick f c w).world.mapGame (m.onReset (m.tick f c w).node)⟩ := by
  rw [tick, tickAround]
  dsimp only
  rw [if_neg h]
  rfl

/-- **One tick of a repeater without end**: one tick of the child, which is reset if it was done. -/
theorem tick_endless (m : Machine N G) (ended : Nat) (f : Frame) (c : N) (w : World G) :
    let d := repeater none (min ended largestCount)
    let now := d.uses m f (some c) w
    let o := d.tick m f (some c) w
    now = .tick ⟨f, c, w⟩ :: (if (m.tick f c w).status.isDone then [.reset] else []) ∧
      o.status = .running ∧
      ∃ child, o.node =
        (repeater none (min (ended + Use.tally m Status.isDone now) largestCount),
          some child) := by
  intro d now o
  have hdone : (m.tick f c w).status.isDone = ! (m.tick f c w).status.isRunning := by
    cases (m.tick f c w).status <;> rfl
  by_cases hrunning : (m.tick f c w).status.isRunning = true
  · have hnow : now = [.tick ⟨f, c, w⟩] := by
      show uses m f d (some c) w = _
      have hlogged : (m.logged.tick f (Machine.unlogged c) w).status.isRunning = true := hrunning
      rw [uses, Option.map_some, tick_endless_running hlogged]
      rfl
    have ho : o = _ := tick_endless_running hrunning
    rw [ho, hnow, hdone, hrunning]
    refine ⟨rfl, rfl, _, Prod.ext (congrArg (repeater none) ?_) rfl⟩
    simp [Use.tally, Call.outcome, hdone, hrunning]
  · have hnow : now = [.tick ⟨f, c, w⟩, .reset] := by
      show uses m f d (some c) w = _
      have hlogged : ¬ (m.logged.tick f (Machine.unlogged c) w).status.isRunning = true := hrunning
      rw [uses, Option.map_some, tick_endless_done hlogged]
      rfl
    have ho : o = _ := tick_endless_done hrunning
    rw [ho, hnow, hdone]
    refine ⟨by simp [hrunning], rfl, _, Prod.ext (congrArg (repeater none) ?_) rfl⟩
    simp [Use.tally, Call.outcome, hdone, hrunning]
    -- a count that has come to the largest one stays there
    omega

/-- **A run of a repeater without end** keeps count of how often the child was done. -/
theorem spell_endless (m : Machine N G) (c : N) (moves : List (Move G)) (w : World G) :
    let r := beats m moves (repeater none 0, some c) w
    ∃ child, r.2.1 =
      (repeater none (min (Use.tally m Status.isDone ((spell r.1).flatMap Beat.uses)) largestCount),
        some child) := by
  let I (past : List (Beat N G)) (s : Decorator G × Option N) : Prop := ∃ child,
    s = (repeater none (min (Use.tally m Status.isDone (past.flatMap Beat.uses)) largestCount),
      some child)
  -- the count saturates at the largest one, and a tick that goes on adds to it up to there
  refine spell_keeps (I := I) ?_ ?_ ?_ ⟨c, rfl⟩ moves w
  · rintro f past s w ⟨child, rfl⟩ -
    obtain ⟨-, -, child', hnode⟩ :=
      tick_endless m (Use.tally m Status.isDone (past.flatMap Beat.uses)) f child w
    refine ⟨child', hnode.trans ?_⟩
    rw [List.flatMap_append, List.flatMap_singleton, Use.tally_append]
    rfl
  · -- without an end the repeater is running after every tick
    rintro f past s w ⟨child, rfl⟩ hended
    obtain ⟨-, hstatus, -⟩ :=
      tick_endless m (Use.tally m Status.isDone (past.flatMap Beat.uses)) f child w
    exact absurd hstatus hended
  · rintro past s ⟨child, rfl⟩
    exact ⟨m.reset child, rfl⟩

end Endless

/-! ### Both over a whole run -/

/-- **A repeater over a whole run**, with resets at any time. What was done to the child since the
repeater was built, succeeded or was reset is `past`, and `now` is what one more tick adds to it.
Where a number of rounds is given, the count is how often the child was done, and stays below that
number as long as rounds are left over. The child is reset whenever it was done, before it is ticked
again. The repeater is running just if that is what the child reported last, it succeeds just when
the child has been done as often as the number says, no more and no less, and it never fails; after
a success the count is zero. With a negative number it ticks the child once, resets it if it was
done, and is running, and the count goes no further than the largest one. -/
theorem repeater_rounds (m : Machine N G) (times : Int32) (c : N) (w : World G)
    (moves : List (Move G)) (frame : Frame) :
    let r := beats m moves (repeating times, some c) w
    let past := (spell r.1).flatMap Beat.uses
    ∃ d child w', r.2 = ((d, some child), w') ∧
      m.decorator.run moves (repeating times, some c) w =
        (r.1.filterMap Beat.status?, (d, some child), w') ∧
      let now := d.uses m frame (some child) w'
      let o := d.tick m frame (some child) w'
      let done := Use.tally m Status.isDone
      (0 ≤ times →
        let n := times.toInt.toNat
        d = repeater (some n) (done past) ∧ (spell r.1 = [] ∨ done past < n) ∧ n ≤ largestCount ∧
        Tidy m (past ++ now) ∧
        o.status ≠ .failure ∧
        (o.status = .running ↔ (Use.reports m now).getLast? = some .running) ∧
        (o.status = .success ↔ done (past ++ now) = n) ∧ done (past ++ now) ≤ n ∧
        o.node.1 = repeater (some n) (if o.status = .running then done (past ++ now) else 0)) ∧
      (times < 0 →
        d = repeater none (min (done past) largestCount) ∧
        now = .tick ⟨frame, child, w'⟩ ::
          (if (m.tick frame child w').status.isDone then [.reset] else []) ∧
        o.status = .running ∧
        o.node.1 = repeater none (min (done (past ++ now)) largestCount)) := by
  intro r past
  have hrun := run_eq_beats m moves (repeating times, some c) w
  by_cases hsign : times < 0
  · have hleft := spell_endless m c moves w
    rw [← repeating_of_neg hsign] at hleft
    obtain ⟨child, hs⟩ := hleft
    have hr : r.2 = (_, r.2.2) := Prod.ext hs rfl
    refine ⟨_, child, r.2.2, hr, hrun.trans (Prod.ext rfl hr),
      fun hpos => absurd hsign (Int32.not_lt.mpr hpos), fun _ => ?_⟩
    obtain ⟨hnow, hstatus, child', hnode⟩ :=
      tick_endless m (Use.tally m Status.isDone past) frame child r.2.2
    refine ⟨rfl, hnow, hstatus, ?_⟩
    rw [Use.tally_append]
    exact congrArg Prod.fst hnode
  · let n := times.toInt.toNat
    have hcounts := counts_repeater m n
    have hleft := hcounts.spell_counting c moves w
    rw [← repeating_of_nonneg (Int32.not_lt.mp hsign)] at hleft
    obtain ⟨child, hs⟩ := hleft.state
    have hr : r.2 = (_, r.2.2) := Prod.ext hs rfl
    refine ⟨_, child, r.2.2, hr, hrun.trans (Prod.ext rfl hr), fun _ => ?_,
      fun hneg => absurd hneg hsign⟩
    rw [hs] at hleft
    obtain ⟨verdict, hrounds, hstatus, hrunning, hnone, hle, hnode⟩ :=
      hcounts.next hleft frame r.2.2
    have hlargest : n ≤ largestCount := by
      have hlt := times.toInt_lt
      simp only [n, largestCount]
      omega
    refine ⟨rfl, hleft.left, hlargest, hleft.tidy.append hrounds.tidy, ?_, hrunning, ?_, hle,
      hnode⟩
    · -- only a running child ends the rounds before they are used up
      rw [hstatus]
      cases verdict with
      | none => exact nofun
      | some s =>
        obtain rfl := hrounds.eq_running
        exact nofun
    · rw [hstatus, ← hnone]
      cases verdict with
      | none => simp
      | some s =>
        obtain rfl := hrounds.eq_running
        simp

/-- **A retry over a whole run**, with resets at any time. What was done to the child since the
retry was built, done or reset is `past`, and `now` is what one more tick adds to it. The count is
how often the child failed, and stays below the number of attempts, of which there is at least one;
no more attempts are made in the tick than are left. The child is reset whenever it was done, before
it is ticked again. The retry fails just when the child has failed as often as there are attempts,
it succeeds just when the child has, and it is running just if that is what the child reported last,
which is no attempt; otherwise the count starts anew. -/
theorem retry_rounds (m : Machine N G) (attempts : UInt32) (c : N) (w : World G)
    (moves : List (Move G)) (frame : Frame) :
    let r := beats m moves (retrying attempts, some c) w
    let past := (spell r.1).flatMap Beat.uses
    let most := max attempts.toNat 1
    let failures := Use.tally m (· = .failure)
    ∃ child w', r.2 = ((retry most (failures past), some child), w') ∧
      m.decorator.run moves (retrying attempts, some c) w =
        (r.1.filterMap Beat.status?, (retry most (failures past), some child), w') ∧
      failures past < most ∧ most ≤ largestCount ∧
      let now := (retry most (failures past)).uses m frame (some child) w'
      let o := (retry most (failures past)).tick m frame (some child) w'
      (Use.reports m now).length ≤ most - failures past ∧
      Tidy m (past ++ now) ∧
      (o.status = .failure ↔ failures (past ++ now) = most) ∧ failures (past ++ now) ≤ most ∧
      (o.status = .success ↔ .success ∈ Use.reports m (past ++ now)) ∧
      (o.status = .running ↔ (Use.reports m now).getLast? = some .running) ∧
      o.node.1 = retry most (if o.status = .running then failures (past ++ now) else 0) := by
  intro r past most failures
  have hrun := run_eq_beats m moves (retrying attempts, some c) w
  have hcounts := counts_retry m most
  have hleft := hcounts.spell_counting c moves w
  have hnew : retrying attempts = (retry most 0 : Decorator G) := rfl
  rw [← hnew] at hleft
  obtain ⟨child, hs⟩ := hleft.state
  have hr : r.2 = (_, r.2.2) := Prod.ext hs rfl
  have hpositive : 0 < most := Nat.lt_of_lt_of_le Nat.zero_lt_one (Nat.le_max_right _ 1)
  have hlargest : most ≤ largestCount := by
    have hlt := attempts.toNat_lt
    simp only [most, largestCount]
    omega
  have hless : failures past < most := by
    rcases hleft.left with hempty | hless
    · simp only [past, r, hempty]
      exact hpositive
    · exact hless
  -- a success would have been the end of the spell
  have hpast : .success ∉ Use.reports m past := by
    intro hmem
    have hreason := hleft.reports _ hmem
    simp at hreason
  refine ⟨child, r.2.2, hr, hrun.trans (Prod.ext rfl hr), hless, hlargest, ?_⟩
  rw [hs] at hleft
  obtain ⟨verdict, hrounds, hstatus, hrunning, hnone, hle, hnode⟩ :=
    hcounts.next hleft frame r.2.2
  refine ⟨hrounds.length_reports_le, hleft.tidy.append hrounds.tidy, ?_, hle, ?_, hrunning, hnode⟩
  · rw [hstatus, ← hnone]
    cases verdict with
    | none => simp
    | some s =>
      obtain ⟨-, henough, -⟩ := hrounds.tally_some rfl
      simpa using henough
  · rw [hstatus, Use.reports_append, List.mem_append, or_iff_right hpast]
    constructor
    · intro hsuccess
      cases verdict with
      | none => cases hsuccess
      | some s =>
        obtain ⟨-, -, hlast⟩ := hrounds.tally_some rfl
        obtain rfl : s = .success := hsuccess
        exact List.mem_of_getLast? hlast
    · intro hmem
      rcases hrounds.again_of_mem _ hmem with hmore | hverdict
      · simp at hmore
      · rw [hverdict]
        rfl

end Decorator

end Instinct
