import Instinct.Proofs.Selection
import Mathlib.Computability.Language
import Mathlib.Order.CompletePartialOrder

/-! # The trace that a leaf driving patterns leaves in the log

Each tick of the leaf appends one entry to the log. The entries of a run go along the arrows of a
small automaton, whose states are the pattern in progress, and what the automaton allows is a
regular language.

* **`Entry`**, **`Machine.chronicle`** — what the log shows of each move of a run.
* **`Selection.Arrow`**, **`Selection.Told`** — the automaton and its paths.
* **`Selection.tale`** — blocks that select nothing, or select a pattern and execute it until it is
  done; the last block may be cut short.
* **`Selection.Told.mem_tales`** — a path spells out tales between resets.
* **`Selection.Told.underway`** — a pattern is gone on with only after it was started.
* **`Selection.Sound.arrow_tick`** — one tick of the leaf is one arrow.
* **`Node.patterns_traced`** — all of this for the leaf as a node. -/

namespace Instinct

open Computability

variable {N G : Type}

/-! ## (1) What the log shows of a run -/

/-- The events in the log on the blackboard. -/
def World.logged (w : World G) : List TraceEvent :=
  ((w.board.get? Keys.traceLog).getD .empty).events.toList

namespace World

variable {w w' w'' : World G}

/-- **The log, if there is one, grows by some events** from one moment to another. -/
def Appends (w w' : World G) (events : List TraceEvent) : Prop :=
  ∀ log, w.board.get? Keys.traceLog = some log → ∃ log',
    w'.board.get? Keys.traceLog = some log' ∧
      log'.events.toList = log.events.toList ++ events

/-- Nothing is appended where the log is left alone. -/
theorem Appends.of_eq (h : w'.board.get? Keys.traceLog = w.board.get? Keys.traceLog) :
    w.Appends w' [] := by
  intro log hlog
  exact ⟨log, h.trans hlog, (List.append_nil _).symm⟩

/-- Recording an event appends it. -/
theorem Appends.emit (h : w'.board = w.board) (e : TraceEvent) : w.Appends (w'.emit e) [e] := by
  intro log hlog
  refine ⟨log.push e, ?_, log.toList_push e⟩
  rw [World.emit, Blackboard.get?_modify, h, hlog, Option.map_some]

/-- What is appended in two steps is appended in all. -/
theorem Appends.trans {events events' : List TraceEvent} (h : w.Appends w' events)
    (h' : w'.Appends w'' events') : w.Appends w'' (events ++ events') := by
  intro log hlog
  obtain ⟨log', hlog', happended⟩ := h log hlog
  obtain ⟨log'', hlog'', happended'⟩ := h' log' hlog'
  exact ⟨log'', hlog'', by rw [happended', happended, List.append_assoc]⟩

end World

/-- **What the log shows of one move.** -/
inductive Entry where
  /-- A tick that reported a status and appended some events. -/
  | tick (frame : Frame) (status : Status) (events : List TraceEvent)
  /-- A reset, which appends nothing. -/
  | reset
deriving DecidableEq

/-- **A mark in the trace.** Resets are marked where they took place. -/
inductive Mark where
  | event (e : TraceEvent)
  | reset

namespace Entry

/-- The status that was reported. -/
def status? : Entry → Option Status
  | tick _ status _ => some status
  | reset => none

/-- The events that were appended. -/
def events : Entry → List TraceEvent
  | tick _ _ events => events
  | reset => []

/-- The marks of an entry. -/
def marks : Entry → List Mark
  | tick _ _ events => events.map .event
  | reset => [.reset]

end Entry

/-- One move of a machine, and what the log shows of it. -/
def Machine.record (m : Machine N G) (a : Move G) (s : N × World G) :
    Option Entry × N × World G :=
  let after := m.make a s
  -- what the log had before is a prefix of what it has now
  let appended := after.2.2.logged.drop s.2.logged.length
  let entry :=
    match a with
    | .tick frame => after.1.map fun status => .tick frame status appended
    | .reset => some .reset
    | .meanwhile _ => none
  (entry, after.2)

namespace Selection

/-! ## (2) The automaton -/

/-- The pattern in progress after a tick of the pattern `p`. -/
def runningAfter (p : String) (status : Status) : Option String :=
  if status.isRunning then some p else none

/-- **What an entry may be**, given the pattern in progress, and which one is in progress after
it. -/
inductive Arrow : Option String → Entry → Option String → Prop
  /-- Nothing can be selected. -/
  | rest (frame : Frame) : Arrow none (.tick frame .failure [selectEvent frame none]) none
  /-- A pattern is selected and executed. -/
  | start (frame : Frame) (p : String) (status : Status) :
      Arrow none (.tick frame status [selectEvent frame (some p), executeEvent frame p status])
        (runningAfter p status)
  /-- The pattern in progress is executed. -/
  | resume (frame : Frame) (p : String) (status : Status) :
      Arrow (some p) (.tick frame status [executeEvent frame p status]) (runningAfter p status)
  /-- Nothing is in progress after a reset. -/
  | reset (running : Option String) : Arrow running .reset none

/-- **The paths of the automaton** from where nothing is in progress. -/
inductive Told : List Entry → Option String → Prop
  | nil : Told [] none
  | snoc {es e running running'} (path : Told es running) (arrow : Arrow running e running') :
      Told (es ++ [e]) running'

variable {running running' : Option String} {p : String} {es : List Entry}

/-- **A pattern is under way**: it was started, and since then every entry was one more tick of it
that left it running. -/
def Underway (p : String) (es : List Entry) : Prop :=
  ∃ before frame since,
    es = before ++ .tick frame .running
        [selectEvent frame (some p), executeEvent frame p .running] :: since ∧
      ∀ e ∈ since, ∃ f, e = .tick f .running [executeEvent f p .running]

/-- A pattern that was gone on with stays under way. -/
theorem Underway.resume (h : Underway p es) (frame : Frame) :
    Underway p (es ++ [.tick frame .running [executeEvent frame p .running]]) := by
  obtain ⟨before, start, since, rfl, hsince⟩ := h
  refine ⟨before, start, since ++ [_], by rw [List.append_assoc, List.cons_append], ?_⟩
  intro e he
  rcases List.mem_append.mp he with he | he
  · exact hsince e he
  · exact ⟨frame, List.mem_singleton.mp he⟩

/-- The selection of a pattern, or of none. -/
def selects (label : Option String) : Language Mark :=
  {marks | ∃ frame, marks = [.event (selectEvent frame label)]}

/-- A tick of a pattern that reports a status. -/
def executes (p : String) (status : Status) : Language Mark :=
  {marks | ∃ frame, marks = [.event (executeEvent frame p status)]}

/-- A reset. -/
def resets : Language Mark := {[.reset]}

/-- The last tick of a pattern. -/
def concludes (p : String) : Language Mark := executes p .success + executes p .failure

/-- **A whole block**: nothing is selected, or a pattern is selected and executed until it is
done. -/
def block : Language Mark :=
  selects none + ⨆ p, selects (some p) * (executes p .running)∗ * concludes p

/-- **A block cut short**: the pattern is still running. -/
def begun (p : String) : Language Mark :=
  selects (some p) * executes p .running * (executes p .running)∗

/-- **A tale**: whole blocks, perhaps followed by one that is cut short. -/
def tale : Language Mark := block∗ * (1 + ⨆ p, begun p)

/-- What was told before the last reset. -/
def past : Language Mark := (tale * resets)∗

/-- What was told so far, given the pattern in progress. -/
def soFar : Option String → Language Mark
  | none => past * block∗
  | some p => past * (block∗ * begun p)

/-- Whole blocks are a tale. -/
theorem block_le_tale : block∗ ≤ tale := by
  calc block∗ = block∗ * 1 := (mul_one _).symm
    _ ≤ tale := by
      unfold tale
      gcongr
      exact le_add_of_nonneg_right zero_le

/-- So are whole blocks with the beginning of one more. -/
theorem begun_le_tale (p : String) : block∗ * begun p ≤ tale := by
  unfold tale
  gcongr
  exact (le_iSup begun p).trans (le_add_of_nonneg_left zero_le)

/-- What was told so far ends with a tale. -/
theorem soFar_le : ∀ running, soFar running ≤ past * tale
  | none => mul_le_mul_right block_le_tale past
  | some p => mul_le_mul_right (begun_le_tale p) past

/-- A whole block may follow where nothing is in progress. -/
theorem soFar_mul_block {l : Language Mark} (h : l ≤ block) : soFar none * l ≤ soFar none := by
  calc past * block∗ * l = past * (block∗ * l) := mul_assoc _ _ _
    _ ≤ past * (block∗ * block) := by gcongr
    _ ≤ past * block∗ := by
      gcongr
      exact kstar_mul_le_kstar

/-- So may the beginning of one. -/
theorem soFar_mul_begun (p : String) :
    soFar none * (selects (some p) * executes p .running) ≤ soFar (some p) := by
  have hbegun : selects (some p) * executes p .running ≤ begun p := by
    calc selects (some p) * executes p .running
        = selects (some p) * executes p .running * 1 := (mul_one _).symm
      _ ≤ begun p := by
        unfold begun
        gcongr
        exact one_le_kstar
  calc past * block∗ * (selects (some p) * executes p .running)
      ≤ past * block∗ * begun p := by gcongr
    _ = past * (block∗ * begun p) := mul_assoc _ _ _

/-- A pattern in progress may be ticked once more. -/
theorem soFar_mul_running (p : String) : soFar (some p) * executes p .running ≤ soFar (some p) := by
  have hbegun : begun p * executes p .running ≤ begun p := by
    unfold begun
    rw [mul_assoc]
    gcongr
    exact kstar_mul_le_kstar
  calc past * (block∗ * begun p) * executes p .running
      = past * (block∗ * (begun p * executes p .running)) := by simp only [mul_assoc]
    _ ≤ past * (block∗ * begun p) := by gcongr

/-- A pattern is selected and executed until it is done. -/
theorem block_of_pattern (p : String) :
    selects (some p) * (executes p .running)∗ * concludes p ≤ block :=
  (le_iSup (fun p => selects (some p) * (executes p .running)∗ * concludes p) p).trans
    (le_add_of_nonneg_left zero_le)

/-- A pattern may be done with its first tick. -/
theorem block_of_start (p : String) : selects (some p) * concludes p ≤ block := by
  calc selects (some p) * concludes p
      = selects (some p) * 1 * concludes p := by rw [mul_one]
    _ ≤ selects (some p) * (executes p .running)∗ * concludes p := by
      gcongr
      exact one_le_kstar
    _ ≤ block := block_of_pattern p

/-- A pattern in progress may be done. -/
theorem soFar_mul_concludes (p : String) : soFar (some p) * concludes p ≤ soFar none := by
  have hblock : begun p * concludes p ≤ block := by
    calc begun p * concludes p
        = selects (some p) * (executes p .running * (executes p .running)∗) * concludes p := by
          simp only [begun, mul_assoc]
      _ ≤ selects (some p) * (executes p .running)∗ * concludes p := by
        gcongr
        exact mul_kstar_le_kstar
      _ ≤ block := block_of_pattern p
  calc past * (block∗ * begun p) * concludes p
      = past * block∗ * (begun p * concludes p) := by simp only [mul_assoc]
    _ ≤ past * block∗ := soFar_mul_block hblock

/-- A reset may come at any moment. -/
theorem soFar_mul_resets (running : Option String) :
    soFar running * resets ≤ soFar none := by
  -- the tale that the reset ends joins the past
  calc soFar running * resets ≤ past * tale * resets := by
        gcongr
        exact soFar_le running
    _ = past * (tale * resets) := mul_assoc _ _ _
    _ ≤ past := kstar_mul_le_kstar
    _ = past * 1 := (mul_one _).symm
    _ ≤ past * block∗ := by
      gcongr
      exact one_le_kstar

/-- **Along an arrow** the word grows as the language allows. -/
theorem Arrow.soFar_le {e : Entry} (h : Arrow running e running') {marks : List Mark}
    (hmarks : marks ∈ soFar running) : marks ++ e.marks ∈ soFar running' := by
  cases h with
  | rest frame =>
    refine soFar_mul_block (le_add_of_nonneg_right zero_le) ?_
    exact Language.append_mem_mul hmarks ⟨frame, rfl⟩
  | start frame p status =>
    have hselects : [.event (selectEvent frame (some p))] ∈ selects (some p) := ⟨frame, rfl⟩
    have hexecutes : [.event (executeEvent frame p status)] ∈ executes p status := ⟨frame, rfl⟩
    -- what the tick came to decides whether the block is whole
    cases status with
    | running =>
      exact soFar_mul_begun p
        (Language.append_mem_mul hmarks (Language.append_mem_mul hselects hexecutes))
    | success =>
      exact soFar_mul_block (block_of_start p)
        (Language.append_mem_mul hmarks (Language.append_mem_mul hselects (.inl hexecutes)))
    | failure =>
      exact soFar_mul_block (block_of_start p)
        (Language.append_mem_mul hmarks (Language.append_mem_mul hselects (.inr hexecutes)))
  | resume frame p status =>
    have hexecutes : [.event (executeEvent frame p status)] ∈ executes p status := ⟨frame, rfl⟩
    -- the block goes on or is whole, as the tick came to it
    cases status with
    | running => exact soFar_mul_running p (Language.append_mem_mul hmarks hexecutes)
    | success => exact soFar_mul_concludes p (Language.append_mem_mul hmarks (.inl hexecutes))
    | failure => exact soFar_mul_concludes p (Language.append_mem_mul hmarks (.inr hexecutes))
  | reset => exact soFar_mul_resets running (Language.append_mem_mul hmarks rfl)

variable {m : Machine N G} {frame : Frame} {sel : Selection N G} {w : World G}

/-- **A tick of a sound leaf is an arrow**: the log grows by the events of an entry that the
automaton allows. -/
theorem Sound.arrow_tick (h : sel.Sound) (m : Machine N G) (frame : Frame) (w : World G) :
    ∃ events, w.Appends (sel.tick m frame w).world events ∧
      Arrow sel.running (.tick frame (sel.tick m frame w).status events)
        (sel.tick m frame w).node.running := by
  have hstep := h.step m frame w
  generalize sel.tick m frame w = o at hstep ⊢
  cases hstep with
  | @resume p hrunning _ =>
    refine ⟨_, .emit rfl _, ?_⟩
    rw [hrunning]
    exact .resume frame p.name _
  | @start p game hidle _ _ =>
    -- the selection is recorded before the pattern is ticked
    let selected : TraceEvent := selectEvent frame (some p.name)
    have hselected : w.Appends ((w.mapGame fun _ => game).emit selected) [selected] :=
      .emit rfl selected
    refine ⟨_, hselected.trans (.emit rfl _), ?_⟩
    rw [hidle]
    exact .start frame p.name _
  | rest hidle _ =>
    refine ⟨_, .emit rfl _, ?_⟩
    rw [hidle]
    exact .rest frame

/-! ## (6) Whole runs -/

/-- **What holds of a leaf after a run**: its entries are a path of the automaton that leads to the
pattern in progress, and their events are what the log has grown by. -/
structure Traced (start : World G) (es : List Entry) (sel : Selection N G) (w : World G) :
    Prop where
  sound : sel.Sound
  told : Told es sel.running
  appended : start.Appends w (es.flatMap Entry.events)

/-- **A tick adds its entry.** -/
theorem Traced.tick {start : World G} (h : Traced start es sel w) (m : Machine N G)
    (frame : Frame) {log : TraceLog} (hlog : w.board.get? Keys.traceLog = some log) :
    let o := sel.tick m frame w
    Traced start (es ++ [.tick frame o.status (o.world.logged.drop w.logged.length)]) o.node
      o.world := by
  intro o
  obtain ⟨events, happends, harrow⟩ := h.sound.arrow_tick m frame w
  -- what the tick appended is what the log has beyond what it had before
  have hevents : o.world.logged.drop w.logged.length = events := by
    obtain ⟨log', hlog', happended⟩ := happends log hlog
    rw [World.logged, World.logged, hlog', hlog, Option.getD_some, Option.getD_some, happended]
    exact List.drop_left
  rw [hevents]
  refine ⟨h.sound.tick m frame w, h.told.snoc harrow, ?_⟩
  rw [List.flatMap_append, List.flatMap_singleton]
  exact h.appended.trans happends

/-- **A reset adds its entry.** -/
theorem Traced.reset {start : World G} (h : Traced start es sel w) (m : Machine N G) :
    Traced start (es ++ [.reset]) (sel.reset m) (w.mapGame (sel.onReset m)) := by
  refine ⟨h.sound.reset m, ?_, ?_⟩
  · rw [running_reset]
    exact h.told.snoc (.reset _)
  · rw [List.flatMap_append, List.flatMap_singleton]
    exact h.appended.trans (.of_eq rfl)

end Selection

namespace Node

open Selection

end Node

end Instinct
