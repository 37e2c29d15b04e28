import Instinct.Node.Kinds
import Instinct.Proofs.Succession
import Mathlib.Algebra.Ring.Nat

/-! # Waits in a row

Waits that follow one another in a sequence hand over within a tick: the tick that ends one of them
starts the next, and no tick both starts and ends a wait. So the times to wait add up, and a run
takes one tick more than there are waits at least, however short they are.

* **`Relay`** — when each of some waits was started and ended, and what the ticks report.
* **`Relay.elapsed`**, **`Relay.ticks`**, **`Relay.single`** — how long a relay takes at least.
* **`Walked.reports_eq`** — what the children report in a walk, by how it ended.
* **`Composite.laps_relay`** — a sequence of waits, from when one of them was started.
* **`Decorator.run_repeater_wait`** — a repeater of a wait does what a sequence of as many waits
  does.
* **`Composite.timers_add_up`** — whole runs of both. -/

namespace Instinct

/-! ## (1) Relays -/

/-- **A relay of waits.** The waits number `i` and later are to last for some durations, and the
first of them is started in a tick at `start`, which later ticks follow. It is running until the
first later tick that comes no earlier than its duration after `start`. In this tick it succeeds,
and the next wait is started, until none is left. Told are the reports of the waits in each tick,
those of the first tick from wait `i` on, and the status of the last tick. -/
inductive Relay :
    Nat → List Duration → Duration → List Duration → List (List (Nat × Status)) → Status → Prop
  /-- No wait is left to be started. -/
  | finished {i start} : Relay i [] start [] [[]] .success
  /-- All later ticks were early, and the wait is running. -/
  | waiting {i d ds start} {ts : List Duration}
      (early : ∀ t ∈ ts, t.nanos < start.nanos + d.nanos) :
      Relay i (d :: ds) start ts (List.replicate (ts.length + 1) [(i, .running)]) .running
  /-- After some early ticks, the one at `t` was not, and the next wait was started in it. -/
  | handover {i d ds start} {ts : List Duration} {t later now rs s}
      (early : ∀ u ∈ ts, u.nanos < start.nanos + d.nanos)
      (due : start.nanos + d.nanos ≤ t.nanos) (rest : Relay (i + 1) ds t later (now :: rs) s) :
      Relay i (d :: ds) start (ts ++ t :: later)
        (List.replicate (ts.length + 1) [(i, .running)] ++ ((i, .success) :: now) :: rs) s

namespace Relay

variable {i : Nat} {d : Duration} {ds : List Duration} {start t : Duration} {ts : List Duration}
  {now : List (Nat × Status)} {rs : List (List (Nat × Status))} {s : Status}

/-- One more early tick right after the start. -/
theorem delay (h : Relay i (d :: ds) start ts ([(i, .running)] :: rs) s)
    (early : t.nanos < start.nanos + d.nanos) :
    Relay i (d :: ds) start (t :: ts) ([(i, .running)] :: [(i, .running)] :: rs) s := by
  -- the early ticks that follow come behind this one
  generalize [(i, .running)] :: rs = reports at h ⊢
  cases h with
  | waiting hearly => exact .waiting (List.forall_mem_cons.mpr ⟨early, hearly⟩)
  | handover hearly hdue rest =>
    exact .handover (List.forall_mem_cons.mpr ⟨early, hearly⟩) hdue rest

/-- The first tick right after the start ends the wait. -/
theorem pass (h : Relay (i + 1) ds t ts (now :: rs) s)
    (due : start.nanos + d.nanos ≤ t.nanos) :
    Relay i (d :: ds) start (t :: ts) ([(i, .running)] :: ((i, .success) :: now) :: rs) s :=
  .handover (List.forall_mem_nil _) due h

/-- A relay never fails. -/
theorem status (h : Relay i ds start ts rs s) : s = .running ∨ s = .success := by
  induction h with
  | finished => exact .inr rfl
  | waiting => exact .inl rfl
  | handover early due rest ih => exact ih

/-- **The times to wait add up.** -/
theorem elapsed (h : Relay i ds start ts rs .success) :
    start.nanos + (ds.map Duration.nanos).sum ≤ (ts.getLastD start).nanos := by
  generalize hs : Status.success = s at h
  induction h with
  | finished => exact Nat.le_refl _
  | waiting => cases hs
  | @handover i d ds start ts t later now rs s early due rest ih =>
    -- the last tick of all is the last one after the handover, or the handover itself
    have hlast : (ts ++ t :: later).getLastD start = later.getLastD t := by
      rw [List.getLastD_eq_getLast?, List.getLastD_eq_getLast?, List.getLast?_append,
        List.getLast?_cons]
      rfl
    have hrest := ih hs
    rw [hlast, List.map_cons, List.sum_cons]
    omega

/-- **Each wait takes a tick** after the one that started it. -/
theorem ticks (h : Relay i ds start ts rs .success) : ds.length ≤ ts.length := by
  generalize hs : Status.success = s at h
  induction h with
  | finished => exact Nat.le_refl 0
  | waiting => cases hs
  | handover early due rest ih =>
    have hrest := ih hs
    simp only [List.length_cons, List.length_append]
    omega

/-- The tick that starts a wait does not end it. -/
theorem first (h : Relay i ds start ts (now :: rs) s) : now = [] ∨ now = [(i, .running)] := by
  generalize hreports : now :: rs = reports at h
  cases h with
  | finished => exact .inl (List.cons.inj hreports).1
  | waiting => exact .inr (List.cons.inj hreports).1
  | handover => exact .inr (List.cons.inj hreports).1

/-- **At most one wait ends in a tick.** -/
theorem single (h : Relay i ds start ts rs s) : ∀ r ∈ rs, r.countP (·.2 = .success) ≤ 1 := by
  induction h with
  | finished => simp
  | waiting =>
    intro r hr
    obtain rfl := List.eq_of_mem_replicate hr
    simp
  | handover early due rest ih =>
    obtain ⟨-, hlater⟩ := List.forall_mem_cons.mp ih
    intro r hr
    -- ticks before the handover report only that the wait is running
    rcases List.mem_append.mp hr with hbefore | hr
    · obtain rfl := List.eq_of_mem_replicate hbefore
      simp
    · rcases List.mem_cons.mp hr with rfl | hafter
      · -- at the handover one wait succeeds, and the next one only begins
        rcases rest.first with rfl | rfl <;> simp
      · exact hlater r hafter

end Relay

/-! ## (2) Walks over waits -/

variable {N G : Type}

/-- **What the children report in a walk** is told by how many were passed and by how it ended. -/
theorem Walked.reports_eq {m : Machine N G} {goOn s : Status} {ns : List (N × Nat)}
    {es : List (Note N G)} {passed : Nat} (h : Walked m goOn ns es s passed) :
    es.map (Note.report m) =
      (ns.take passed).map (fun n => (n.2, goOn)) ++
        ((ns.drop passed).head?.map fun n => (n.2, s)).toList := by
  induction h with
  | done => rfl
  | pass e status rest ih =>
    have hreport : e.report m = (e.number, goOn) := Prod.ext rfl status
    rw [List.map_cons, hreport, ih]
    rfl
  | stop e status => rfl

section Sequences

variable (m : Machine N G) (f : Frame) (before rest : List N) (w : World G)

/-- A sequence of which the children in front were passed walks over the rest. -/
theorem Composite.tick_sequence_behind :
    let r := walk m .success f rest w
    (sequence before.length).tick m f (before ++ rest) w =
      if r.status = .running then
        ⟨.running, (sequence (before.length + r.passed), before ++ r.children), r.world⟩
      else conclude m (sequence 0) (before ++ r.children) r.status r.world := by
  intro r
  have hwalk : walkFrom m .success f before.length (before ++ rest) w = r.behind before := by
    have hadd : walkFrom m .success f (before.length + 0) (before ++ rest) w = _ :=
      walkFrom_add before rest 0 w
    rwa [Nat.add_zero, walkFrom_zero] at hadd
  rw [tick, tickInOrder_eq, hwalk]
  dsimp only [Walk.behind]

/-- What the children of such a sequence report: a success each until one stops it. -/
theorem Composite.reports_sequence_behind :
    let r := walk m .success f rest w
    ((sequence before.length).record m f (before ++ rest) w).map (Note.report m) =
      ((rest.zipIdx before.length).take r.passed).map (fun n => (n.2, .success)) ++
        (((rest.zipIdx before.length).drop r.passed).head?.map
          fun n => (n.2, r.status)).toList := by
  intro r
  have hwalked := InOrder.sequence.walked_record m f (before ++ rest) w before.length
  have hrest : (before ++ rest).zipIdx.drop before.length = rest.zipIdx before.length := by
    rw [List.zipIdx_append, List.drop_left' (List.length_zipIdx), Nat.zero_add]
  rw [List.drop_left, hrest] at hwalked
  exact hwalked.reports_eq

end Sequences

/-! ## (3) Ticks of waits -/

/-- What the children reported within one tick of a composite. -/
def Lap.reports (m : Machine N G) (l : Lap N G) : List (Nat × Status) :=
  l.notes.map (Note.report m)

/-- **A wait that was started.** -/
def Node.waiting (d start : Duration) : Node G := leaf none (.wait d (some start))

section Waits

variable {d start : Duration} {f : Frame}

/-- The first tick of a wait starts it. -/
theorem Node.tick_wait (d : Duration) (f : Frame) (w : World G) :
    asMachine.tick f (wait d) w = ⟨.running, waiting d f.now, w⟩ := rfl

/-- A wait that was not started is as after a reset. -/
theorem Node.reset_wait (d : Duration) : (wait d : Node G).reset = wait d := rfl

/-- A reset forgets that a wait was started. -/
theorem Node.reset_waiting (d start : Duration) : (waiting d start : Node G).reset = wait d := rfl

/-- As long as less than the duration has passed it is running. -/
theorem Node.tick_early (hearly : ¬ d ≤ f.elapsedSince start) (w : World G) :
    asMachine.tick f (waiting d start) w = ⟨.running, waiting d start, w⟩ := by
  show Outcome.map (leaf none) (Leaf.tick f (.wait d (some start)) w) = _
  rw [Leaf.tick, if_neg hearly]
  rfl

/-- Then it succeeds. -/
theorem Node.tick_due (hdue : d ≤ f.elapsedSince start) (w : World G) :
    asMachine.tick f (waiting d start) w = ⟨.success, wait d, w⟩ := by
  show Outcome.map (leaf none) (Leaf.tick f (.wait d (some start)) w) = _
  rw [Leaf.tick, if_pos hdue]
  rfl

/-- The time that has passed, where time does not go back. -/
theorem Frame.le_elapsedSince_iff (hstart : start ≤ f.now) :
    d ≤ f.elapsedSince start ↔ start.nanos + d.nanos ≤ f.now.nanos := by
  rw [Duration.le_iff] at hstart ⊢
  rw [Frame.elapsedSince, Duration.nanos_sub]
  omega

end Waits

namespace Composite

/-- **A sequence that has come to one of its waits**, which was started. -/
def waitingFor (before : List (Node G)) (d start : Duration) (ds : List Duration) :
    Composite × List (Node G) :=
  (.sequence before.length, before ++ .waiting d start :: ds.map .wait)

/-- **What one tick comes to**: what the composite and its children report, and what it leaves. -/
def Comes (f : Frame) (c : Composite × List (Node G)) (w : World G) (s : Status)
    (reports : List (Nat × Status)) (r : (Composite × List (Node G)) × World G) : Prop :=
  ∃ l, lap Node.asMachine (.tick f) (c, w) = (some l, r) ∧ l.status = s ∧
    l.reports Node.asMachine = reports

variable {d start : Duration} {ds : List Duration} {f : Frame} {rest rest' : List (Node G)}
  {passed : Nat} {w w' : World G}

/-- A tick comes to what it reports and leaves. -/
theorem comes_tick {c : Composite × List (Node G)} {o : Outcome (Composite × List (Node G)) G}
    {reports : List (Nat × Status)} (htick : c.1.tick Node.asMachine f c.2 w = o)
    (hreports : (c.1.record Node.asMachine f c.2 w).map (Note.report Node.asMachine) = reports) :
    Comes f c w o.status reports (o.node, o.world) := by
  subst htick
  exact ⟨⟨c.1.record Node.asMachine f c.2 w, (c.1.tick Node.asMachine f c.2 w).status⟩,
    rfl, rfl, hreports⟩

/-- A tick in which the walk over the waits suspends. -/
theorem comes_running (before : List (Node G))
    (hwalk : walk Node.asMachine .success f rest w = ⟨.running, passed, rest', w'⟩) :
    Comes f (sequence before.length, before ++ rest) w .running
      (((rest.zipIdx before.length).take passed).map (fun n => (n.2, .success)) ++
        (((rest.zipIdx before.length).drop passed).head?.map fun n => (n.2, .running)).toList)
      ((sequence (before.length + passed), before ++ rest'), w') := by
  have htick := tick_sequence_behind Node.asMachine f before rest w
  have hreports := reports_sequence_behind Node.asMachine f before rest w
  rw [hwalk] at htick hreports
  exact comes_tick (c := (sequence before.length, before ++ rest)) (htick.trans (if_pos rfl))
    hreports

/-- A tick in which it gets to the end. -/
theorem comes_success (before : List (Node G))
    (hwalk : walk Node.asMachine .success f rest w = ⟨.success, passed, rest', w'⟩) :
    Comes f (sequence before.length, before ++ rest) w .success
      (((rest.zipIdx before.length).take passed).map (fun n => (n.2, .success)) ++
        (((rest.zipIdx before.length).drop passed).head?.map fun n => (n.2, .success)).toList)
      ((sequence 0, (before ++ rest').map Node.reset),
        w'.mapGame (Node.asMachine.onResetAll (before ++ rest'))) := by
  have htick := tick_sequence_behind Node.asMachine f before rest w
  have hreports := reports_sequence_behind Node.asMachine f before rest w
  rw [hwalk] at htick hreports
  exact comes_tick (c := (sequence before.length, before ++ rest)) (htick.trans (if_neg nofun))
    hreports

/-- **The first tick** starts the first wait. -/
theorem comes_new (d : Duration) (ds : List Duration) (f : Frame) (w : World G) :
    Comes f (.sequence 0, (d :: ds).map .wait) w .running [(0, .running)]
      (waitingFor [] d f.now ds, w) := by
  have hwalk : walk Node.asMachine .success f ((d :: ds).map .wait) w =
      ⟨.running, 0, .waiting d f.now :: ds.map .wait, w⟩ := by
    rw [List.map_cons, walk_cons (Node.tick_wait d f w), if_neg nofun]
  exact comes_running [] hwalk

/-- Without waits it succeeds. -/
theorem comes_nil (f : Frame) (w : World G) :
    Comes f (.sequence 0, ([] : List Duration).map .wait) w .success []
      ((.sequence 0, ([] : List Duration).map .wait), w) := by
  have hwalk : walk Node.asMachine .success f [] w = ⟨.success, 0, [], w⟩ := walk_nil _ _ f w
  exact comes_success [] hwalk

/-- **An early tick** changes nothing. -/
theorem comes_early (hearly : ¬ d ≤ f.elapsedSince start) (before : List (Node G))
    (ds : List Duration) (w : World G) :
    Comes f (waitingFor before d start ds) w .running [(before.length, .running)]
      (waitingFor before d start ds, w) := by
  have hwalk : walk Node.asMachine .success f (.waiting d start :: ds.map .wait) w =
      ⟨.running, 0, .waiting d start :: ds.map .wait, w⟩ := by
    rw [walk_cons (Node.tick_early hearly w), if_neg nofun]
  exact comes_running before hwalk

/-- **A tick that is not early** ends the wait and starts the next one. -/
theorem comes_due (hdue : d ≤ f.elapsedSince start) (d' : Duration)
    (before : List (Node G)) (ds : List Duration) (w : World G) :
    Comes f (waitingFor before d start (d' :: ds)) w .running
      [(before.length, .success), (before.length + 1, .running)]
      (waitingFor (before ++ [.wait d]) d' f.now ds, w) := by
  have hwalk : walk Node.asMachine .success f (.waiting d start :: (d' :: ds).map .wait) w =
      ⟨.running, 1, .wait d :: .waiting d' f.now :: ds.map .wait, w⟩ := by
    rw [walk_cons (Node.tick_due hdue w), if_pos rfl, List.map_cons,
      walk_cons (Node.tick_wait d' f w), if_neg nofun]
    rfl
  have hcomes := comes_running before hwalk
  rw [waitingFor, waitingFor, List.length_append, List.append_assoc]
  exact hcomes

/-- Of the last wait it is the end. -/
theorem comes_due_last (hdue : d ≤ f.elapsedSince start) (before : List (Node G))
    (w : World G) :
    Comes f (waitingFor before d start []) w .success [(before.length, .success)]
      ((sequence 0, (before ++ [Node.wait d]).map Node.reset),
        w.mapGame (Node.asMachine.onResetAll (before ++ [.wait d]))) := by
  have hwalk : walk Node.asMachine .success f [.waiting d start] w =
      ⟨.success, 1, [.wait d], w⟩ := by
    rw [walk_cons (Node.tick_due hdue w), if_pos rfl, walk_nil]
    rfl
  exact comes_success before hwalk

/-! ## (4) Runs of sequences -/

/-- Each tick of a run is one lap. -/
theorem length_laps (m : Machine N G) (moves : List (Move G)) (c : Composite × List N)
    (w : World G) : (laps m moves c w).1.length = (Move.times moves).length := by
  induction moves generalizing c w with
  | nil => rfl
  | cons a moves ih =>
    cases a with
    | tick frame => exact congrArg Nat.succ (ih _ _)
    | reset => exact ih _ _
    | meanwhile change => exact ih _ _

/-- A run without laps has no ticks. -/
theorem times_eq_nil {m : Machine N G} {moves : List (Move G)} {c : Composite × List N}
    {w : World G} (h : (laps m moves c w).1 = []) : Move.times moves = [] := by
  rw [← List.length_eq_zero_iff, ← length_laps, h]
  rfl

/-- If all laps but the last are running, so are all but the last of those after the first. -/
theorem running_after {l : Lap N G} {ls : List (Lap N G)}
    (h : ∀ l' ∈ (l :: ls).dropLast, l'.status = .running) :
    (∀ l' ∈ ls.dropLast, l'.status = .running) ∧ (l.status ≠ .running → ls = []) := by
  cases ls with
  | nil => exact ⟨List.forall_mem_nil _, fun _ => rfl⟩
  | cons l' ls =>
    rw [List.dropLast_cons_cons] at h
    obtain ⟨hfirst, hrest⟩ := List.forall_mem_cons.mp h
    exact ⟨hrest, fun hended => absurd hfirst hended⟩

/-- The first tick of a run that is running but for its last tick, and the rest of it. -/
theorem Comes.laps_cons {c c' : Composite × List (Node G)} {s : Status}
    {reports : List (Nat × Status)} (h : Comes f c w s reports (c', w')) {moves : List (Move G)}
    (hrunning : ∀ l ∈ (laps Node.asMachine (.tick f :: moves) c w).1.dropLast,
      l.status = .running) :
    let ls := (laps Node.asMachine (.tick f :: moves) c w).1
    let rest := (laps Node.asMachine moves c' w').1
    ls.map (Lap.reports Node.asMachine) = reports :: rest.map (Lap.reports Node.asMachine) ∧
      (ls.map Lap.status).getLastD .running = (rest.map Lap.status).getLastD s ∧
      (∀ l ∈ rest.dropLast, l.status = .running) ∧ (s ≠ .running → rest = []) := by
  obtain ⟨l, hlap, rfl, rfl⟩ := h
  intro ls rest
  have hls : ls = l :: rest := by
    show (laps Node.asMachine (.tick f :: moves) c w).1 = _
    rw [laps, runSteps_cons, hlap]
    rfl
  have hrunning : ∀ l ∈ ls.dropLast, l.status = .running := hrunning
  rw [hls] at hrunning ⊢
  exact ⟨rfl, List.getLastD_cons, running_after hrunning⟩

/-- **A run from when a wait was started**, up to its end at most. -/
theorem laps_relay {moves : List (Move G)} (hmoves : ∀ a ∈ moves, a ≠ .reset)
    (before : List (Node G)) {d start : Duration} {ds : List Duration} {w : World G}
    (hforward : (start :: Move.times moves).Pairwise (· ≤ ·))
    (hrunning : ∀ l ∈ (laps Node.asMachine moves (waitingFor before d start ds) w).1.dropLast,
      l.status = .running) :
    let r := laps Node.asMachine moves (waitingFor before d start ds) w
    Relay before.length (d :: ds) start (Move.times moves)
      ([(before.length, .running)] :: r.1.map (Lap.reports Node.asMachine))
      ((r.1.map Lap.status).getLastD .running) := by
  -- a handover changes the wait, its start and what lies before it, so all of them are general
  induction moves generalizing before d start ds w with
  | nil => exact .waiting (List.forall_mem_nil _)
  | cons a moves ih =>
    obtain ⟨hfirst, hrest⟩ := List.forall_mem_cons.mp hmoves
    cases a with
    | reset => exact absurd rfl hfirst
    | meanwhile change => exact ih hrest before hforward hrunning
    | tick f =>
      intro r
      obtain ⟨hstart, hlater⟩ := List.pairwise_cons.mp hforward
      obtain ⟨hnow, hafter⟩ := List.forall_mem_cons.mp hstart
      show Relay _ _ _ (f.now :: Move.times moves) _ _
      by_cases hdue : d ≤ f.elapsedSince start
      · have hover := (Frame.le_elapsedSince_iff hnow).mp hdue
        cases ds with
        | nil =>
          obtain ⟨hreports, hlast, -, hend⟩ := (comes_due_last hdue before w).laps_cons hrunning
          -- with the last wait the run ends
          have hend := hend nofun
          rw [hreports, hlast, hend, times_eq_nil hend]
          exact Relay.finished.pass hover
        | cons d' ds =>
          obtain ⟨hreports, hlast, hrunning, -⟩ :=
            (comes_due hdue d' before ds w).laps_cons hrunning
          have hrelay := ih hrest (before ++ [.wait d]) hlater hrunning
          rw [List.length_append] at hrelay
          rw [hreports, hlast]
          exact hrelay.pass hover
      · have hearly : f.now.nanos < start.nanos + d.nanos := by
          rwa [Frame.le_elapsedSince_iff hnow, Nat.not_le] at hdue
        obtain ⟨hreports, hlast, hrunning, -⟩ := (comes_early hdue before ds w).laps_cons hrunning
        have hsame : (start :: Move.times moves).Pairwise (· ≤ ·) :=
          List.pairwise_cons.mpr ⟨hafter, (List.pairwise_cons.mp hlater).2⟩
        rw [hreports, hlast]
        exact (ih hrest before hsame hrunning).delay hearly

/-- **A run from the first wait on**, up to its end at most. -/
theorem laps_relay_new {moves : List (Move G)} (hmoves : ∀ a ∈ moves, a ≠ .reset)
    (hforward : Move.Forward moves) {start : Duration} {later : List Duration}
    (htimes : Move.times moves = start :: later) (ds : List Duration) {w : World G}
    (hrunning : ∀ l ∈ (laps Node.asMachine moves (.sequence 0, ds.map .wait) w).1.dropLast,
      l.status = .running) :
    let r := laps Node.asMachine moves (.sequence 0, ds.map .wait) w
    Relay 0 ds start later (r.1.map (Lap.reports Node.asMachine))
      ((r.1.map Lap.status).getLastD .running) := by
  induction moves generalizing w with
  | nil => cases htimes
  -- before the first tick nothing is there to time
  | cons a moves ih =>
    obtain ⟨hfirst, hrest⟩ := List.forall_mem_cons.mp hmoves
    cases a with
    | reset => exact absurd rfl hfirst
    | meanwhile change => exact ih hrest hforward htimes hrunning
    | tick f =>
      intro r
      obtain ⟨rfl, hlater⟩ := List.cons.inj htimes
      have hlater : Move.times moves = later := hlater
      subst hlater
      cases ds with
      -- a sequence without children is over with its first tick
      | nil =>
        obtain ⟨hreports, hlast, -, hend⟩ := (comes_nil f w).laps_cons hrunning
        have hend := hend nofun
        rw [hreports, hlast, hend, times_eq_nil hend]
        exact .finished
      | cons d ds =>
        obtain ⟨hreports, hlast, hrunning, -⟩ := (comes_new d ds f w).laps_cons hrunning
        rw [hreports, hlast]
        exact laps_relay hrest [] hforward hrunning

end Composite

/-! ## (5) A wait within a repeater -/

/-- **A repeater of a wait, and a sequence of as many waits** that has come as far. -/
inductive Lockstep (d : Duration) (n : Nat) :
    Decorator G × Option (Node G) → Composite × List (Node G) → Prop
  /-- Both are new. -/
  | new : Lockstep d n (.repeater (some n) 0, some (.wait d))
      (.sequence 0, (List.replicate n d).map .wait)
  /-- The wait is under way, and `k` rounds are over. -/
  | waiting {k l start} (rounds : k + 1 + l = n) :
      Lockstep d n (.repeater (some n) k, some (.waiting d start))
        (Composite.waitingFor (List.replicate k (.wait d)) d start (List.replicate l d))

namespace Decorator

variable {d start : Duration} {f : Frame} {n k : Nat}

/-- A round that starts with a new wait. -/
theorem repeatChild_wait (d : Duration) (f : Frame) (left k : Nat) (w : World G) :
    repeatChild Node.asMachine f (left + 1) k (.wait d) w =
      (.running, k, .waiting d f.now, w) := by
  rw [repeatChild, Node.tick_wait]
  rfl

/-- A round that goes on with an early tick. -/
theorem repeatChild_early (h : ¬ d ≤ f.elapsedSince start) (left k : Nat) (w : World G) :
    repeatChild Node.asMachine f (left + 1) k (.waiting d start) w =
      (.running, k, .waiting d start, w) := by
  rw [repeatChild, Node.tick_early h]
  rfl

/-- A round that ends. -/
theorem repeatChild_due (h : d ≤ f.elapsedSince start) (left k : Nat) (w : World G) :
    repeatChild Node.asMachine f (left + 1) k (.waiting d start) w =
      repeatChild Node.asMachine f left (k + 1) (.wait d)
        (w.mapGame (Node.asMachine.onReset (.wait d))) := by
  rw [repeatChild, Node.tick_due h]
  rfl

/-- One tick of a repeater, by its loop. -/
theorem tick_repeater_eq {m : Machine N G} {c c' : N} {w w' : World G} {s : Status} {k' : Nat}
    (h : repeatChild m f (n - k) k c w = (s, k', c', w')) :
    (repeater (some n) k).tick m f (some c) w =
      ⟨s, (repeater (some n) k', some c'), w'⟩ := by
  rw [tick, tickAround, h]
  rfl

end Decorator

namespace Lockstep

open Decorator

variable {d : Duration} {n : Nat} {f : Frame} {r : Decorator G × Option (Node G)}
  {c : Composite × List (Node G)}

/-- Resets of the waits leave them new. -/
theorem map_reset_waits {k l : Nat} (rounds : k + 1 + l = n) {c : Node G}
    (hc : c.reset = .wait d) :
    (List.replicate k (Node.wait d) ++ c :: (List.replicate l d).map .wait).map Node.reset =
      (List.replicate n d).map (Node.wait : Duration → Node G) := by
  have hn : List.replicate n (Node.wait d : Node G) =
      List.replicate k (.wait d) ++ .wait d :: List.replicate l (.wait d) := by
    rw [← rounds, Nat.add_assoc, Nat.add_comm 1, List.replicate_add, List.replicate_succ]
  rw [List.map_append, List.map_cons, hc, List.map_replicate, List.map_replicate,
    List.map_replicate, List.map_replicate, Node.reset_wait, hn]

/-- Ticks that report the same and leave both in step. -/
theorem of_ticks {s : Status} {reports : List (Nat × Status)} {w₁ w₁' w₂ w₂' : World G}
    {r' : Decorator G × Option (Node G)} {c' : Composite × List (Node G)}
    (hr : Node.asMachine.decorator.tick f r w₁ = ⟨s, r', w₁'⟩)
    (hc : Composite.Comes f c w₂ s reports (c', w₂')) (h : Lockstep d n r' c') :
    let o := Node.asMachine.decorator.tick f r w₁
    let o' := Node.asMachine.composite.tick f c w₂
    o'.status = o.status ∧ Lockstep d n o.node o'.node := by
  -- the lap tells what the composite came to, and is put in for it
  obtain ⟨l, hlap, rfl, -⟩ := hc
  obtain ⟨hl, hafter⟩ := Prod.mk.inj hlap
  obtain rfl := Option.some.inj hl
  obtain ⟨rfl, -⟩ := Prod.mk.inj hafter
  intro o o'
  have ho : o = _ := hr
  rw [ho]
  exact ⟨rfl, h⟩

/-- **Both go on together.** -/
theorem tick (h : Lockstep d n r c) (f : Frame) (w₁ w₂ : World G) :
    let o := Node.asMachine.decorator.tick f r w₁
    let o' := Node.asMachine.composite.tick f c w₂
    o'.status = o.status ∧ Lockstep d n o.node o'.node := by
  cases h with
  | new =>
    cases n with
    | zero => exact of_ticks (tick_repeater_eq rfl) (Composite.comes_nil f w₂) .new
    | succ n =>
      refine of_ticks (tick_repeater_eq (repeatChild_wait d f n 0 w₁))
        (Composite.comes_new d (List.replicate n d) f w₂) (.waiting ?_)
      omega
  | @waiting k l start rounds =>
    have hleft : n - k = l + 1 := by omega
    by_cases hdue : d ≤ f.elapsedSince start
    · have hround := repeatChild_due hdue l k w₁
      rw [← hleft] at hround
      -- within the same tick the repeater goes on with a new wait, if a round is left
      cases l with
      | zero =>
        have hcomes := Composite.comes_due_last hdue (List.replicate k (.wait d)) w₂
        have hreset := map_reset_waits rounds (Node.reset_wait d : (Node.wait d : Node G).reset = _)
        rw [List.replicate_zero, List.map_nil] at hreset
        rw [hreset] at hcomes
        exact of_ticks (tick_repeater_eq hround) hcomes .new
      | succ l =>
        have hcomes :=
          Composite.comes_due hdue d (List.replicate k (.wait d)) (List.replicate l d) w₂
        rw [← List.replicate_succ'] at hcomes
        rw [repeatChild_wait] at hround
        refine of_ticks (tick_repeater_eq hround) hcomes (.waiting ?_)
        omega
    · have hround := repeatChild_early hdue l k w₁
      rw [← hleft] at hround
      exact of_ticks (tick_repeater_eq hround)
        (Composite.comes_early hdue _ (List.replicate l d) w₂) (.waiting rounds)

/-- Resets take both back to where they began. -/
theorem reset (h : Lockstep d n r c) :
    Lockstep d n (Node.asMachine.decorator.reset r) (Node.asMachine.composite.reset c) := by
  have hnew : Lockstep d n (.repeater (some n) 0, some (Node.wait d : Node G))
      (.sequence 0, (List.replicate n d).map .wait) := .new
  cases h with
  | new =>
    have hreset : ((List.replicate n d).map Node.wait).map Node.reset =
        (List.replicate n d).map (Node.wait : Duration → Node G) := by
      rw [List.map_replicate, List.map_replicate, Node.reset_wait]
    rw [← hreset] at hnew
    exact hnew
  | waiting rounds =>
    rwa [← map_reset_waits rounds (Node.reset_waiting d _)] at hnew

end Lockstep

/-- **A repeater of a wait reports what a sequence of as many waits does**, in every run. -/
theorem Decorator.run_repeater_wait (d : Duration) (n : Nat) (moves : List (Move G))
    (w : World G) :
    (Node.asMachine.decorator.run moves (repeater (some n) 0, some (.wait d)) w).1 =
      (Node.asMachine.composite.run moves (.sequence 0, (List.replicate n d).map .wait) w).1 := by
  let P (s : (Composite × List (Node G)) × World G)
      (t : (Decorator G × Option (Node G)) × World G) : Prop := Lockstep d n t.1 s.1
  have hstep : ∀ a b s t, a = b → P s t →
      (Node.asMachine.decorator.make b t).1 = (Node.asMachine.composite.make a s).1 ∧
        P (Node.asMachine.composite.make a s).2 (Node.asMachine.decorator.make b t).2 := by
    rintro a _ ⟨c, w₂⟩ ⟨r, w₁⟩ rfl h
    -- ticks keep the two in step, and so do resets and changes from outside
    cases a with
    | tick f =>
      obtain ⟨hstatus, hafter⟩ := Lockstep.tick h f w₁ w₂
      exact ⟨congrArg some hstatus.symm, hafter⟩
    | reset => exact ⟨rfl, Lockstep.reset h⟩
    | meanwhile change => exact ⟨rfl, h⟩
  have hstart : P ((.sequence 0, (List.replicate n d).map .wait), w)
      ((repeater (some n) 0, some (.wait d)), w) := .new
  exact (runSteps_together hstep (List.forall₂_same.mpr fun _ _ => rfl) hstart).1

/-! ## (6) Whole runs -/

namespace Composite

variable {moves : List (Move G)} {start : Duration} {later : List Duration} {w : World G}

/-- **The run of a sequence of waits** is a relay, up to the first tick that is not running. -/
theorem relay_run (hmoves : ∀ a ∈ moves, a ≠ .reset) (hforward : Move.Forward moves)
    (htimes : Move.times moves = start :: later) (ds : List Duration) :
    let statuses := (Node.asMachine.composite.run moves (.sequence 0, ds.map .wait) w).1
    (∀ s ∈ statuses.dropLast, s = .running) →
      Relay 0 ds start later
        ((laps Node.asMachine moves (.sequence 0, ds.map .wait) w).1.map
          (Lap.reports Node.asMachine)) (statuses.getLastD .running) ∧
      statuses.length = later.length + 1 := by
  intro statuses hrunning
  have hstatuses : statuses = _ := congrArg Prod.fst (run_eq_laps Node.asMachine moves _ w)
  rw [hstatuses] at hrunning ⊢
  rw [← List.map_dropLast] at hrunning
  -- what each report stands for is read off the laps of the same run
  refine ⟨laps_relay_new hmoves hforward htimes ds fun l hl => ?_, ?_⟩
  · exact hrunning _ (List.mem_map_of_mem hl)
  · rw [List.length_map, length_laps, htimes]
    rfl

/-- **Timers add up and never fire early.** The run of a sequence of waits, first ticked at `start`,
up to the first tick that is not running, where time does not go back: each wait ends in the first
tick after the one that started it that comes no earlier than its duration after that, and the next
wait is started in the same tick. At most one wait ends in a tick. The last tick is running as all
before it, or a success; that comes no earlier than all the durations together after `start`, and
not before there was one tick more than there are waits. So it is with a repeater of one wait, which
takes as long as if each round had a wait of its own. -/
theorem timers_add_up (hmoves : ∀ a ∈ moves, a ≠ .reset) (hforward : Move.Forward moves)
    (htimes : Move.times moves = start :: later) (w : World G) :
    (∀ ds : List Duration,
      let statuses := (Node.asMachine.composite.run moves (.sequence 0, ds.map .wait) w).1
      let reports := (laps Node.asMachine moves (.sequence 0, ds.map .wait) w).1.map
        (Lap.reports Node.asMachine)
      let s := statuses.getLastD .running
      (∀ s ∈ statuses.dropLast, s = .running) →
        Relay 0 ds start later reports s ∧
        (∀ r ∈ reports, r.countP (·.2 = .success) ≤ 1) ∧
        (s = .running ∨ s = .success) ∧
        (s = .success →
          start.nanos + (ds.map Duration.nanos).sum ≤ (later.getLastD start).nanos ∧
          ds.length + 1 ≤ statuses.length)) ∧
    ∀ (times : Int32) (d : Duration), 0 < times →
      let n := times.toInt.toNat
      let statuses := (Node.asMachine.decorator.run moves
        (Decorator.repeating times, some (.wait d)) w).1
      let s := statuses.getLastD .running
      (∀ s ∈ statuses.dropLast, s = .running) →
        (s = .running ∨ s = .success) ∧
        (s = .success →
          start.nanos + n * d.nanos ≤ (later.getLastD start).nanos ∧
          n + 1 ≤ statuses.length) := by
  refine ⟨fun ds => ?_, fun times d htimes' => ?_⟩
  · -- the relay is the whole story of a sequence; the bounds are read off it
    intro statuses reports s hrunning
    obtain ⟨hrelay, hlength⟩ := relay_run hmoves hforward htimes ds hrunning
    refine ⟨hrelay, hrelay.single, hrelay.status, fun hsuccess => ?_⟩
    have hended : Relay 0 ds start later reports .success := hsuccess ▸ hrelay
    have hlength : statuses.length = later.length + 1 := hlength
    rw [hlength]
    exact ⟨hended.elapsed, Nat.succ_le_succ hended.ticks⟩
  · intro n statuses s hrunning
    -- the repeater reports what a sequence of as many waits does
    have hsame : statuses =
        (Node.asMachine.composite.run moves (.sequence 0, (List.replicate n d).map .wait) w).1 := by
      show (Node.asMachine.decorator.run moves (Decorator.repeating times, some (.wait d)) w).1 = _
      rw [Decorator.repeating_of_nonneg (Int32.le_of_lt htimes'), Decorator.run_repeater_wait]
    have hs : s = _ := congrArg (·.getLastD .running) hsame
    rw [hsame] at hrunning
    obtain ⟨hrelay, hlength⟩ := relay_run hmoves hforward htimes (List.replicate n d) hrunning
    rw [← hs] at hrelay
    rw [← hsame] at hlength
    refine ⟨hrelay.status, fun hsuccess => ?_⟩
    rw [hsuccess] at hrelay
    have helapsed := hrelay.elapsed
    have hticks := hrelay.ticks
    -- all waits are as long as each other, so the sum is a product
    rw [List.map_replicate, List.sum_replicate_nat] at helapsed
    rw [List.length_replicate] at hticks
    rw [hlength]
    exact ⟨helapsed, Nat.succ_le_succ hticks⟩

/-- Two waits of five milliseconds, in a sequence and in a repeater. -/
theorem timers_add_up_two :
    let m : Machine (Node Unit) Unit := Node.asMachine
    let d : Duration := .ofMillis 5
    let w : World Unit := ⟨.empty, { game := () }⟩
    let moves : List (Move Unit) :=
      [.tick (.atMillis 0), .meanwhile id, .tick (.atMillis 5), .tick (.atMillis 10)]
    (m.composite.run moves (.sequence 0, [d, d].map .wait) w).1 =
        [.running, .running, .success] ∧
      (m.decorator.run moves (Decorator.repeating 2, some (.wait d)) w).1 =
        [.running, .running, .success] ∧
      Relay 0 [d, d] (.ofMillis 0) [.ofMillis 5, .ofMillis 10]
        [[(0, .running)], [(0, .success), (1, .running)], [(1, .success)]] .success ∧
      (Duration.ofMillis 0).nanos + 2 * d.nanos ≤ (Duration.ofMillis 10).nanos := by
  intro m d w moves
  have hmoves : ∀ a ∈ moves, a ≠ .reset := by simp [moves]
  have hforward : Move.Forward moves := by decide
  have htimes : Move.times moves = .ofMillis 0 :: [.ofMillis 5, .ofMillis 10] := rfl
  have hstatuses : (m.composite.run moves (.sequence 0, [d, d].map .wait) w).1 =
      [.running, .running, .success] := rfl
  have hnew : (Decorator.repeating 2 : Decorator Unit) = .repeater (some 2) 0 := rfl
  have hrounds : (m.decorator.run moves (Decorator.repeating 2, some (.wait d)) w).1 =
      [.running, .running, .success] := by
    rw [hnew]
    exact (Decorator.run_repeater_wait d 2 moves w).trans hstatuses
  obtain ⟨hsequence, hrepeater⟩ := timers_add_up hmoves hforward htimes w
  have hreports : (laps m moves (.sequence 0, [d, d].map .wait) w).1.map (Lap.reports m) =
      [[(0, .running)], [(0, .success), (1, .running)], [(1, .success)]] := by decide
  obtain ⟨hrelay, -⟩ := hsequence [d, d] (by rw [hstatuses]; simp)
  rw [hreports, hstatuses] at hrelay
  obtain ⟨-, hended⟩ := hrepeater 2 d (by decide) (by rw [hrounds]; simp)
  obtain ⟨helapsed, -⟩ := hended (congrArg (·.getLastD .running) hrounds)
  have hn : (2 : Int32).toInt.toNat = 2 := by decide
  rw [hn] at helapsed
  exact ⟨hstatuses, hrounds, hrelay, helapsed⟩

end Composite

end Instinct
