import Instinct.Node.Kinds
import Instinct.Proofs.Diary
import Mathlib.Data.List.Induction

/-! # The run of a sequence

A sequence suspends at a child that is running and resumes at it with the next tick. Over a whole
run this comes to one pass over the children: each is ticked until it succeeds, and then the next
one is, perhaps within the same tick.

* **`Composite.laps`** — a run, and the ticks of the children within each of its ticks.
* **`course`** — the reports of children that were passed one after the other.
* **`Standing`** — how far a run has come: it waits for a child, all were passed, or one broke it
  off.
* **`Walked.standing`** — one walk; **`Composite.InOrder.standing`** — one tick;
  **`Composite.InOrder.underway_laps`** — a run that is still under way.
* **`Composite.sequence_succession`** — the run of a sequence. -/

namespace Instinct

variable {N G : Type}

/-! ## (1) Runs of composites, with the ticks of their children -/

/-- What a child reported, with its number. -/
def Note.report (m : Machine N G) (e : Note N G) : Nat × Status := (e.number, e.status m)

/-- **One tick of a composite within a run.** -/
structure Lap (N G : Type) where
  /-- The ticks of the children. -/
  notes : List (Note N G)
  /-- What the composite reported. -/
  status : Status

namespace Composite

/-- One thing done to a composite, with the ticks of its children. -/
def lap (m : Machine N G) : Move G → (Composite × List N) × World G →
    Option (Lap N G) × (Composite × List N) × World G
  | .tick frame, (c, w) =>
    let o := m.composite.tick frame c w
    (some ⟨c.1.record m frame c.2 w, o.status⟩, o.node, o.world)
  | .reset, (c, w) => (none, m.composite.resetIn c w)
  | .meanwhile change, (c, w) => (none, c, change w)

/-- **The run of a composite**, with the ticks of its children. -/
def laps (m : Machine N G) (moves : List (Move G)) (c : Composite × List N) (w : World G) :
    List (Lap N G) × (Composite × List N) × World G := runSteps (lap m) moves (c, w)

/-- **What the children have reported** in the course of a run, in the order of time. -/
def reports (m : Machine N G) (moves : List (Move G)) (c : Composite × List N) (w : World G) :
    List (Nat × Status) := ((laps m moves c w).1.flatMap Lap.notes).map (Note.report m)

/-- The ticks of the children leave the run as it is. -/
theorem run_eq_laps (m : Machine N G) (moves : List (Move G)) (c : Composite × List N)
    (w : World G) :
    m.composite.run moves c w =
      ((laps m moves c w).1.map Lap.status, (laps m moves c w).2) := by
  refine runSteps_map (fun a s => ?_) moves (c, w)
  cases a <;> rfl

end Composite

/-! ## (2) The course of a run -/

/-- **The course of a run so far.** Of each child that was passed, `waits` tells how often it was
running before; the one after them has been running `runs` times. -/
def course (goOn : Status) (waits : List Nat) (runs : Nat) : List (Nat × Status) :=
  (waits.zipIdx.flatMap fun x => List.replicate x.1 (x.2, .running) ++ [(x.2, goOn)]) ++
    List.replicate runs (waits.length, .running)

section Course

variable {goOn : Status} {waits : List Nat} {runs : Nat}

/-- Nothing is reported before the first child. -/
theorem course_nil : course goOn [] 0 = [] := rfl

/-- The child that is waited for is running once more. -/
theorem course_wait :
    course goOn waits runs ++ [(waits.length, .running)] = course goOn waits (runs + 1) := by
  rw [course, course, List.append_assoc, ← List.replicate_succ']

/-- The child that was waited for is passed. -/
theorem course_pass :
    course goOn waits runs ++ [(waits.length, goOn)] = course goOn (waits ++ [runs]) 0 := by
  simp [course, List.zipIdx_append, List.flatMap_append]

/-- The course with its last part apart. -/
theorem course_concat (last : Nat) :
    course goOn (waits ++ [last]) runs =
      course goOn waits last ++ (waits.length, goOn) ::
        List.replicate runs (waits.length + 1, .running) := by
  simp [course, List.zipIdx_append, List.flatMap_append]

/-- **Each child that was passed was so once**, and no other was. -/
theorem count_course (hgo : goOn ≠ .running) (i : Nat) :
    (course goOn waits runs).count (i, goOn) = if i < waits.length then 1 else 0 := by
  have hwaiting (k n : Nat) : (List.replicate k (n, Status.running)).count (i, goOn) = 0 := by
    rw [List.count_replicate, if_neg]
    simp [hgo.symm]
  -- the children so far are taken from the last one back
  induction waits using List.reverseRecOn generalizing runs with
  | nil => exact hwaiting runs 0
  | append_singleton waits last ih =>
    rw [course_concat, List.count_append, ih, List.count_cons, hwaiting, List.length_append,
      List.length_singleton]
    rcases Nat.lt_trichotomy i waits.length with hlt | rfl | hgt
    · rw [if_pos hlt, if_neg (by simp; omega), if_pos (by omega)]
    · simp
    · rw [if_neg (by omega), if_neg (by simp; omega), if_neg (by omega)]

/-- No child after the one that is waited for was ticked. -/
theorem le_of_mem_course {x : Nat × Status} (hx : x ∈ course goOn waits runs) :
    x.1 ≤ waits.length := by
  induction waits using List.reverseRecOn generalizing runs with
  | nil => exact Nat.le_of_eq (congrArg Prod.fst (List.eq_of_mem_replicate hx))
  | append_singleton waits last ih =>
    rw [course_concat] at hx
    rw [List.length_append, List.length_singleton]
    rcases List.mem_append.mp hx with hbefore | hlast
    · exact Nat.le_succ_of_le (ih hbefore)
    · rcases List.mem_cons.mp hlast with rfl | hwaiting
      · exact Nat.le_succ _
      · exact Nat.le_of_eq (congrArg Prod.fst (List.eq_of_mem_replicate hwaiting))

end Course

/-- **How far a run over `n` children has come**: by all reports so far, the status of the last tick
and the number of children that were passed. -/
inductive Standing (goOn : Status) (n : Nat) : List (Nat × Status) → Status → Nat → Prop
  /-- It waits for a child that is running. -/
  | waiting {waits runs} (more : waits.length < n) :
      Standing goOn n (course goOn waits (runs + 1)) .running waits.length
  /-- All children were passed. -/
  | finished {waits} (all : waits.length = n) : Standing goOn n (course goOn waits 0) goOn n
  /-- A child broke it off. -/
  | broken {waits runs s} (more : waits.length < n) (other : s ≠ goOn) (done : s ≠ .running) :
      Standing goOn n (course goOn waits runs ++ [(waits.length, s)]) s waits.length

/-- A run that is running waits for a child. -/
theorem Standing.of_running {goOn : Status} {n cursor : Nat} {all : List (Nat × Status)}
    (h : Standing goOn n all .running cursor) (hgo : goOn ≠ .running) :
    ∃ waits runs, waits.length < n ∧ all = course goOn waits (runs + 1) ∧
      cursor = waits.length := by
  cases h with
  | @waiting waits runs more => exact ⟨waits, runs, more, rfl, rfl⟩
  | finished all => exact absurd rfl hgo
  | broken more other done => exact absurd rfl done

/-- A run is over with the status that moves on exactly when every child was passed, once. -/
theorem Standing.status_eq_iff {goOn s : Status} {n cursor : Nat} {all : List (Nat × Status)}
    (h : Standing goOn n all s cursor) (hgo : goOn ≠ .running) :
    s = goOn ↔ ∀ i < n, all.count (i, goOn) = 1 := by
  cases h with
  | waiting more =>
    -- the child that is still waited for has not succeeded yet
    refine iff_of_false hgo.symm fun hall => ?_
    have hcount := hall _ more
    rw [count_course hgo, if_neg (Nat.lt_irrefl _)] at hcount
    cases hcount
  | finished hlength =>
    refine iff_of_true rfl fun i hi => ?_
    rw [count_course hgo, if_pos (hlength ▸ hi)]
  | @broken waits runs s more other done =>
    -- the child that broke it off reported something else in the place of a success
    refine iff_of_false other fun hall => ?_
    have hcount := hall _ more
    have hlast : (waits.length, s) ≠ (waits.length, goOn) := fun heq =>
      other (congrArg Prod.snd heq)
    rw [List.count_append, count_course hgo, if_neg (Nat.lt_irrefl _),
      List.count_eq_zero_of_not_mem fun hmem => hlast (List.mem_singleton.mp hmem).symm] at hcount
    cases hcount

/-- **A walk takes the run on** from where it was suspended. -/
theorem Walked.standing {m : Machine N G} {goOn s : Status} {ns : List (N × Nat)}
    {es : List (Note N G)} {passed : Nat} (h : Walked m goOn ns es s passed) {waits : List Nat}
    {runs : Nat} (hnumbers : ns.map Prod.snd = List.range' waits.length ns.length)
    (hruns : ns = [] → runs = 0) :
    Standing goOn (waits.length + ns.length) (course goOn waits runs ++ es.map (Note.report m)) s
      (waits.length + passed) := by
  induction h generalizing waits runs with
  | done =>
    rw [hruns rfl, List.map_nil, List.append_nil]
    exact .finished rfl
  | @pass ns es s passed e hstatus _ ih =>
    rw [List.map_cons, List.length_cons, List.range'_succ] at hnumbers
    obtain ⟨hnumber, hnumbers⟩ := List.cons.inj hnumbers
    -- this child is done with, and the next one is waited for
    have hreport : e.report m = (waits.length, goOn) := Prod.ext hnumber hstatus
    have hnumbers : ns.map Prod.snd = List.range' (waits ++ [runs]).length ns.length := by
      rwa [List.length_append, List.length_singleton]
    have hrest : Standing goOn _ (course goOn (waits ++ [runs]) 0 ++ es.map (Note.report m)) s _ :=
      ih hnumbers fun _ => rfl
    rw [List.map_cons, hreport, List.append_cons, course_pass, List.length_cons]
    simpa only [List.length_append, List.length_singleton, Nat.add_assoc, Nat.add_comm 1]
      using hrest
  | @stop ns e hstatus =>
    rw [List.map_cons, List.length_cons, List.range'_succ] at hnumbers
    obtain ⟨hnumber, -⟩ := List.cons.inj hnumbers
    have hreport : e.report m = (waits.length, e.status m) := Prod.ext hnumber rfl
    have hmore : waits.length < waits.length + (ns.length + 1) := by omega
    rw [List.map_cons, List.map_nil, hreport, List.length_cons, Nat.add_zero]
    by_cases hrunning : e.status m = .running
    · rw [hrunning, course_wait]
      exact .waiting hmore
    · exact .broken hmore hstatus hrunning

/-- **A walk that does not get to the end** reports what the last child did. -/
theorem Walked.status_iff {m : Machine N G} {goOn s s' : Status} {ns : List (N × Nat)}
    {es : List (Note N G)} {passed : Nat} (h : Walked m goOn ns es s passed) (hs : s' ≠ goOn) :
    s = s' ↔ ∃ i, (es.map (Note.report m)).getLast? = some (i, s') := by
  induction h with
  | done => exact iff_of_false (Ne.symm hs) fun ⟨i, hi⟩ => nomatch hi
  | @pass ns es s passed e hstatus hwalked ih =>
    cases es with
    | nil =>
      rw [ih]
      -- this child was the last one, and it was passed
      refine iff_of_false (fun ⟨i, hi⟩ => nomatch hi) fun ⟨i, hi⟩ => hs ?_
      have hlast : e.report m = (i, s') := Option.some.inj hi
      exact (congrArg Prod.snd hlast).symm.trans hstatus
    | cons e' es => rwa [List.map_cons, List.map_cons, List.getLast?_cons_cons]
  | stop e _ =>
    constructor
    · rintro rfl
      exact ⟨e.number, rfl⟩
    · rintro ⟨i, hi⟩
      have hlast : e.report m = (i, s') := Option.some.inj hi
      exact congrArg Prod.snd hlast

/-! ## (3) Ticks and runs -/

namespace Composite

variable {make : Nat → Composite} {goOn : Status}

/-- A composite that walks over its children ends its tick as the walk did. -/
theorem InOrder.outcome (h : InOrder make goOn) (m : Machine N G) (f : Frame) (cursor : Nat)
    (cs : List N) (w : World G) :
    let o := (make cursor).tick m f cs w
    let r := walk m goOn f (cs.drop cursor) w
    o.status = r.status ∧ o.node.1 = make (if o.status = .running then cursor + r.passed else 0) ∧
      o.node.2.length = cs.length := by
  rw [h.tick, tickInOrder_eq]
  dsimp only
  -- a running composite keeps what the walk left, any other one is reset
  by_cases hrunning : (walkFrom m goOn f cursor cs w).status = .running
  · rw [if_pos hrunning]
    exact ⟨hrunning.symm, rfl, length_walkFrom cursor⟩
  · rw [if_neg hrunning, conclude]
    dsimp only
    rw [if_neg hrunning]
    exact ⟨rfl, h.reset 0, (List.length_map _).trans (length_walkFrom cursor)⟩

/-- **A run that is under way**: `waits` and `runs` tell its course, and the cursor is where that
has come to. -/
structure Underway (make : Nat → Composite) (goOn : Status) (waits : List Nat) (runs : Nat)
    (reports : List (Nat × Status)) (c : Composite × List N) : Prop where
  reports : reports = course goOn waits runs
  memory : c.1 = make waits.length
  within : waits.length ≤ c.2.length
  /-- No child is waited for when all were passed. -/
  passed : waits.length = c.2.length → runs = 0

/-- **One tick takes a run on.** It leaves the cursor where the run has come to, or at the first
child if the run is over, and it reports what the last child did unless all were passed. -/
theorem InOrder.standing (h : InOrder make goOn) {waits : List Nat} {runs : Nat}
    {past : List (Nat × Status)} {c : Composite × List N}
    (hc : Underway make goOn waits runs past c) (m : Machine N G) (f : Frame) (w : World G) :
    let o := m.composite.tick f c w
    let now := (c.1.record m f c.2 w).map (Note.report m)
    (∃ cursor, Standing goOn c.2.length (past ++ now) o.status cursor ∧
      o.node.1 = make (if o.status = .running then cursor else 0) ∧
      o.node.2.length = c.2.length) ∧
    ∀ s, s ≠ goOn → (o.status = s ↔ ∃ i, now.getLast? = some (i, s)) := by
  intro o now
  obtain ⟨memory, cs⟩ := c
  obtain ⟨rfl, rfl, hwithin, hpassed⟩ := hc
  obtain ⟨hstatus, hmemory, hlength⟩ := h.outcome m f waits.length cs w
  have hwalked := h.walked_record m f cs w waits.length
  -- what was noted is the walk from the cursor, with the numbers of the children from there on
  dsimp only at hwalked
  rw [← hstatus] at hwalked
  have hrest : (cs.zipIdx.drop waits.length).length = cs.length - waits.length := by
    rw [List.length_drop, List.length_zipIdx]
  have hnumbers : (cs.zipIdx.drop waits.length).map Prod.snd =
      List.range' waits.length (cs.zipIdx.drop waits.length).length := by
    rw [hrest, List.map_drop, List.zipIdx_map_snd, List.drop_range', Nat.zero_add, Nat.mul_one]
  have hruns : cs.zipIdx.drop waits.length = [] → runs = 0 := by
    intro hnil
    rw [hnil] at hrest
    exact hpassed (Nat.le_antisymm hwithin (Nat.le_of_sub_eq_zero hrest.symm))
  have hstanding := hwalked.standing hnumbers hruns
  rw [hrest, Nat.add_sub_cancel' hwithin] at hstanding
  exact ⟨⟨_, hstanding, hmemory, hlength⟩, fun s hs => hwalked.status_iff hs⟩

/-- As long as it is running it is under way. -/
theorem InOrder.underway_tick (h : InOrder make goOn) {waits : List Nat} {runs : Nat}
    {past : List (Nat × Status)} {c : Composite × List N}
    (hc : Underway make goOn waits runs past c) (m : Machine N G) (f : Frame) (w : World G)
    (hrunning : (m.composite.tick f c w).status = .running) :
    let o := m.composite.tick f c w
    o.node.2.length = c.2.length ∧ ∃ waits runs,
      Underway make goOn waits runs (past ++ (c.1.record m f c.2 w).map (Note.report m))
        o.node := by
  obtain ⟨⟨cursor, hstanding, hmemory, hlength⟩, -⟩ := h.standing hc m f w
  rw [hrunning] at hstanding
  rw [if_pos hrunning] at hmemory
  obtain ⟨waits, runs, hmore, hall, rfl⟩ := hstanding.of_running h.ne_running
  rw [← hlength] at hmore
  exact ⟨hlength, waits, runs + 1, hall, hmemory, Nat.le_of_lt hmore, fun hpassed =>
    absurd hpassed (Nat.ne_of_lt hmore)⟩

/-- **A run without resets is under way** as long as every tick was running. -/
theorem InOrder.underway_laps (h : InOrder make goOn) (m : Machine N G) (cs : List N) (w : World G)
    {moves : List (Move G)} (hmoves : ∀ a ∈ moves, a ≠ .reset)
    (hrunning : ∀ l ∈ (laps m moves (make 0, cs) w).1, l.status = .running) :
    let r := laps m moves (make 0, cs) w
    r.2.1.2.length = cs.length ∧
      ∃ waits runs, Underway make goOn waits runs (reports m moves (make 0, cs) w) r.2.1 := by
  let I (ls : List (Lap N G)) (s : (Composite × List N) × World G) : Prop :=
    (∀ l ∈ ls, l.status = .running) → s.1.2.length = cs.length ∧
      ∃ waits runs, Underway make goOn waits runs ((ls.flatMap Lap.notes).map (Note.report m)) s.1
  have hstep : ∀ a ∈ moves, ∀ ls s, I ls s → I (ls ++ (lap m a s).1.toList) (lap m a s).2 := by
    rintro a ha ls ⟨c, w⟩ hI hls
    obtain ⟨hls, hlast⟩ := List.forall_mem_append.mp hls
    -- every tick of the run was running, and each goes on where the one before stopped
    obtain ⟨hlength, waits, runs, hc⟩ := hI hls
    cases a with
    | tick frame =>
      have hstatus : (m.composite.tick frame c w).status = .running :=
        hlast _ (List.mem_singleton_self _)
      obtain ⟨hlength', hunderway⟩ := h.underway_tick hc m frame w hstatus
      have hlaps : (lap m (.tick frame) (c, w)).1.toList.flatMap Lap.notes =
          c.1.record m frame c.2 w := List.flatMap_singleton _ _
      rw [List.flatMap_append, List.map_append, hlaps]
      exact ⟨hlength'.trans hlength, hunderway⟩
    | reset => exact absurd rfl (hmoves _ ha)
    | meanwhile change =>
      have hlaps : (lap m (.meanwhile change) (c, w)).1.toList = [] := rfl
      rw [hlaps, List.append_nil]
      exact ⟨hlength, waits, runs, hc⟩
  have hstart : I [] ((make 0, cs), w) := fun _ =>
    ⟨rfl, [], 0, course_nil.symm, rfl, Nat.zero_le _, fun _ => rfl⟩
  exact runSteps_history hstep hstart hrunning

/-- What the run of a sequence has come to, and its memory then. -/
theorem standing_sequence {s : Status} {n cursor : Nat} {all : List (Nat × Status)}
    {memory : Composite} :
    Standing .success n all s cursor →
    memory = .sequence (if s = .running then cursor else 0) →
    match s with
    | .running => ∃ waits runs, waits.length < n ∧ all = course .success waits (runs + 1) ∧
        memory = .sequence waits.length
    | .failure => ∃ waits runs, waits.length < n ∧
        all = course .success waits runs ++ [(waits.length, .failure)] ∧
        (∀ x ∈ all, x.1 ≤ waits.length) ∧ memory = .sequence 0
    | .success => ∃ waits, waits.length = n ∧ all = course .success waits 0 ∧
        memory = .sequence 0 := by
  intro h hmemory
  cases h with
  | @waiting waits runs more => exact ⟨waits, runs, more, rfl, hmemory⟩
  | @finished waits hlength => exact ⟨waits, hlength, rfl, hmemory⟩
  | @broken waits runs s more other done =>
    cases s with
    | running => exact absurd rfl done
    | success => exact absurd rfl other
    | failure =>
      refine ⟨waits, runs, more, rfl, fun x hx => ?_, hmemory⟩
      rcases List.mem_append.mp hx with hbefore | hlast
      · exact le_of_mem_course hbefore
      · exact Nat.le_of_eq (congrArg Prod.fst (List.mem_singleton.mp hlast))

/-- **The run of a sequence**, from a reset up to its first success or failure. Its children are
ticked one after the other: each of them is only running until it succeeds, once, and then the next
one is ticked, perhaps within the same tick. The sequence is running exactly when the last child
ticked is, and its cursor is at that child. It fails exactly when the last child ticked does; no
later one was ever ticked. It succeeds exactly when every child has succeeded once. Whenever it is
done the cursor is at the first child. -/
theorem sequence_succession (m : Machine N G) (cs : List N) (w : World G) {moves : List (Move G)}
    (hmoves : ∀ a ∈ moves, a ≠ .reset)
    (hrunning : ∀ s ∈ (m.composite.run moves (.sequence 0, cs) w).1, s = .running) (frame : Frame) :
    let r := m.composite.run moves (.sequence 0, cs) w
    let o := m.composite.tick frame r.2.1 r.2.2
    let now := (r.2.1.1.record m frame r.2.1.2 r.2.2).map (Note.report m)
    let all := reports m moves (.sequence 0, cs) w ++ now
    (o.status = .running ↔ ∃ i, now.getLast? = some (i, .running)) ∧
    (o.status = .failure ↔ ∃ i, now.getLast? = some (i, .failure)) ∧
    (o.status = .success ↔ ∀ i < cs.length, all.count (i, .success) = 1) ∧
    match o.status with
    | .running => ∃ waits runs, waits.length < cs.length ∧
        all = course .success waits (runs + 1) ∧ o.node.1 = .sequence waits.length
    | .failure => ∃ waits runs, waits.length < cs.length ∧
        all = course .success waits runs ++ [(waits.length, .failure)] ∧
        (∀ x ∈ all, x.1 ≤ waits.length) ∧ o.node.1 = .sequence 0
    | .success => ∃ waits, waits.length = cs.length ∧ all = course .success waits 0 ∧
        o.node.1 = .sequence 0 := by
  intro r o now all
  have hlaps := run_eq_laps m moves (.sequence 0, cs) w
  have hrunning' : ∀ l ∈ (laps m moves (.sequence 0, cs) w).1, l.status = .running := by
    rw [hlaps] at hrunning
    exact fun l hl => hrunning _ (List.mem_map_of_mem hl)
  obtain ⟨hlength, waits, runs, hc⟩ :=
    InOrder.sequence.underway_laps m cs w hmoves hrunning'
  have hr : r.2 = (laps m moves (.sequence 0, cs) w).2 := congrArg Prod.snd hlaps
  rw [← hr] at hlength hc
  obtain ⟨⟨cursor, hstanding, hmemory, -⟩, hstatus⟩ := InOrder.sequence.standing hc m frame r.2.2
  rw [hlength] at hstanding
  exact ⟨hstatus .running (by decide), hstatus .failure (by decide),
    hstanding.status_eq_iff (by decide), standing_sequence hstanding hmemory⟩

/-- A sequence whose first child waits for five milliseconds, and which then succeeds. -/
theorem sequence_succession_wait :
    let m : Machine (Node Unit) Unit := Node.asMachine
    let cs : List (Node Unit) := [.wait (.ofMillis 5), .fixed .success]
    let w : World Unit := ⟨.empty, { game := () }⟩
    let moves : List (Move Unit) := [.tick (.atMillis 0), .meanwhile id]
    let r := m.composite.run moves (.sequence 0, cs) w
    let o := m.composite.tick (.atMillis 5) r.2.1 r.2.2
    r.1 = [.running] ∧ o.status = .success ∧
      ∀ i < 2, (reports m moves (.sequence 0, cs) w ++
        (r.2.1.1.record m (.atMillis 5) r.2.1.2 r.2.2).map (Note.report m)).count (i, .success)
          = 1 := by
  intro m cs w moves r o
  have hmoves : ∀ a ∈ moves, a ≠ .reset := by simp [moves]
  have hr : r.1 = [.running] := rfl
  have hrunning : ∀ s ∈ r.1, s = .running := by simp [hr]
  have ho : o.status = .success := rfl
  exact ⟨hr, ho, (sequence_succession m cs w hmoves hrunning (.atMillis 5)).2.2.1.mp ho⟩

end Composite

end Instinct
