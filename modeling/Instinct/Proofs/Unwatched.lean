import Instinct.Node.Kinds
import Instinct.Proofs.Coupling.Exact
import Instinct.Proofs.Runs

/-! # Being watched changes nothing

A tree is watched by a log and a receiver of events on its blackboard, and by whoever is told that
its root begins to fail. Two runs that are watched in different ways are the same otherwise.

* **`Blackboard.Alike b b'`**, **`Tree.Alike t t'`** — the same but for what watches.
* **`Node.Discreet n`** — the callbacks of a node have nothing to do with what watches.
* **`Coupling.unwatched`** — the runs that differ in what watches.
* **`Tree.run_unwatched`** — two runs of trees that are alike report the same statuses, do the same
  to the game and leave trees that are alike. -/

namespace Instinct

variable {G : Type}

/-! ## Blackboards -/

/-- **Blackboards alike but for what watches**: every slot holds the same but for the log and the
receiver of events. -/
def Blackboard.Alike (b b' : Blackboard) : Prop :=
  ∀ name, name ≠ Keys.traceLog.name → name ≠ Keys.traceStream.name → b'.value? name = b.value? name

namespace Blackboard.Alike

variable {b b' : Blackboard}

/-- A blackboard is like itself. -/
theorem refl (b : Blackboard) : b.Alike b := fun _ _ _ => rfl

/-- What is written on both sides leaves them alike. -/
theorem put (h : b.Alike b') (name : String) (v : Value) :
    (b.put name v).Alike (b'.put name v) := by
  intro other hlog hstream
  rw [value?_put, value?_put]
  split
  · rfl
  · exact h other hlog hstream

/-- Installing a log or a receiver is seen in its own slot only. -/
theorem install (h : b.Alike b') {name : String}
    (hname : name = Keys.traceLog.name ∨ name = Keys.traceStream.name) (v : Value) :
    b.Alike (b'.put name v) := by
  intro other hlog hstream
  have hother : name ≠ other := by
    rintro rfl
    exact hname.elim hlog hstream
  rw [value?_put, if_neg hother]
  exact h other hlog hstream

/-- So does what is removed on both sides. -/
theorem removeName (h : b.Alike b') (name : String) :
    (b.removeName name).Alike (b'.removeName name) := by
  intro other hlog hstream
  rw [value?_removeName, value?_removeName]
  split
  · rfl
  · exact h other hlog hstream

/-- Recording in a log is seen in the slot of the log only. -/
theorem push (h : b.Alike b') (e : TraceEvent) :
    (b.modify Keys.traceLog (·.push e)).Alike (b'.modify Keys.traceLog (·.push e)) := by
  intro other hlog hstream
  rw [value?_modify, value?_modify, if_neg (Ne.symm hlog), if_neg (Ne.symm hlog)]
  exact h other hlog hstream

/-- A key of any other slot finds the same on both sides. -/
theorem get? {α : Type} [Slot α] (h : b.Alike b') {key : Key α}
    (hlog : key.name ≠ Keys.traceLog.name) (hstream : key.name ≠ Keys.traceStream.name) :
    b'.get? key = b.get? key := get?_of_value? (h key.name hlog hstream)

end Blackboard.Alike

/-! ## Recording without a log -/

/-- **Without a log, recording leaves the blackboard exactly as it was.** -/
theorem World.board_emit_of_no_log {w : World G} (h : w.board.get? Keys.traceLog = none)
    (e : TraceEvent) : (w.emit e).board = w.board :=
  Blackboard.modify_eq_self fun _ hlog => nomatch h.symm.trans hlog

/-! ## The runs that differ in what watches -/

/-- **The runs that differ in what watches.** Nothing is asked of what was told and streamed. -/
def Coupling.unwatched : Coupling G where
  delay := 0
  seeded := True
  slots name := name ≠ Keys.traceLog.name ∧ name ≠ Keys.traceStream.name
  boards := Blackboard.Alike
  stages s s' := s'.game = s.game
  tells _ := True
  flags _ _ := True
  game_eq h := h
  mapGame h f := congrArg f h
  notify h _ _ := h
  warn h b b' _ root tick := by cases b <;> cases b' <;> exact h
  emit {w w'} hb hs e := by
    refine ⟨hb.push e, ?_⟩
    have hgame : (w'.emit e).game = (w.emit e).game := by
      rw [World.game_emit, World.game_emit]
      exact hs
    exact hgame
  tells_message _ _ _ := trivial
  put h name _ v := h.put name v
  removeName h name _ := h.removeName name
  handles h := ⟨h.get? (by decide) (by decide), h.get? (by decide) (by decide),
    h.get? (by decide) (by decide)⟩
  slots_handles := by decide

/-- The runs are at the same time and draw alike. -/
theorem Coupling.level_unwatched : (unwatched : Coupling G).Level := ⟨rfl, trivial⟩

/-- **A node that has nothing to do with what watches.** Given blackboards that are alike its
callbacks answer alike, do the same to the game and leave blackboards that are alike, and the slots
that it writes are others than the log and the receiver. -/
def Node.Discreet (n : Node G) : Prop := Coupling.unwatched.Blind n

/-- **Trees that are the same but for what watches**: for the logs and the receivers on their
blackboards and on those of the patterns in them, and for whether they warn. -/
structure Tree.Alike (t t' : Tree (Node G)) : Prop where
  root : Coupling.unwatched.Alike t.root t'.root
  board : t.board.Alike t'.board
  last : t'.last = t.last
  ticks : t'.ticks = t.ticks

/-- Whatever is done from outside, but for what has to do with what watches. -/
def Move.Discreet : Move G → Prop
  | tick _ => True
  | reset => True
  | meanwhile change => ∀ w w' : World G, w.board.Alike w'.board → w'.game = w.game →
      (change w).board.Alike (change w').board ∧ (change w').game = (change w).game

namespace Tree

variable {t t' : Tree (Node G)} {s s' : Stage G}

/-- A tree is alike to itself with anything else that watches. -/
theorem alike_watched (hdiscreet : t.root.Everywhere Node.Discreet) {board : Blackboard}
    (hboard : t.board.Alike board) (warns : Bool) : t.Alike { t with board, warns } where
  root := Coupling.alike_self Coupling.level_unwatched .refl (fun _ => trivial) hdiscreet
  board := hboard
  last := rfl
  ticks := rfl

/-- What two runs keep: trees whose nodes keep up, in games that are the same. -/
def Unwatched (r r' : Tree (Node G) × Stage G) : Prop :=
  (Coupling.unwatched : Coupling G).Trees Coupling.unwatched.Nodes r.1 r'.1 ∧ r'.2.game = r.2.game

/-- **One thing done on both sides.** -/
theorem Unwatched.make {r r' : Tree (Node G) × Stage G} (h : Unwatched r r') {move : Move G}
    (hmove : move.Discreet) :
    (Tree.make Node.asMachine move r').1 = (Tree.make Node.asMachine move r).1 ∧
      Unwatched (Tree.make Node.asMachine move r).2 (Tree.make Node.asMachine move r').2 := by
  obtain ⟨t, s⟩ := r
  obtain ⟨t', s'⟩ := r'
  obtain ⟨htrees, hgame⟩ := h
  have hsteps := Coupling.steps_nodes (K := (Coupling.unwatched : Coupling G))
  cases move with
  | tick frame =>
    have hframes : (Coupling.unwatched : Coupling G).Frames frame frame :=
      Coupling.level_unwatched.frames_iff.mpr rfl
    -- the tick is one of trees that keep up, in the same frame
    obtain ⟨hstatus, htrees, hgame⟩ := hsteps.tree hframes htrees hgame
    exact ⟨congrArg some hstatus, htrees, hgame⟩
  | reset =>
    refine ⟨rfl, hsteps.resetTree htrees, ?_⟩
    obtain ⟨hroot, -, -, -, -⟩ := htrees
    show t'.onReset Node.asMachine s'.game = t.onReset Node.asMachine s.game
    unfold Tree.onReset
    rw [hsteps.onReset hroot]
    exact congrArg _ hgame
  -- a discreet change leaves the boards alike and the games the same
  | meanwhile change =>
    obtain ⟨hroot, hboard, hlast, hticks, hwarns⟩ := htrees
    obtain ⟨hboards, hgames⟩ := hmove ⟨t.board, s⟩ ⟨t'.board, s'⟩ hboard hgame
    exact ⟨rfl, ⟨hroot, hboards, hlast, hticks, hwarns⟩, hgames⟩

/-- **Being watched changes nothing.** Take two trees of discreet nodes that are the same but for
the logs, the receivers and the flags that make them warn. Whatever is done to both, they report the
same statuses, do the same to the game and are alike again: their nodes remember the same, and their
blackboards hold the same in every other slot. Where there is no log, recording an event leaves the
blackboard exactly as it was. -/
theorem run_unwatched (halike : t.Alike t') (hdiscreet : t.root.Everywhere Node.Discreet)
    {moves : List (Move G)} (hmoves : ∀ move ∈ moves, move.Discreet) (hgame : s'.game = s.game) :
    (t'.run Node.asMachine moves s').1 = (t.run Node.asMachine moves s).1 ∧
    (t.run Node.asMachine moves s).2.1.Alike (t'.run Node.asMachine moves s').2.1 ∧
    (t'.run Node.asMachine moves s').2.2.game = (t.run Node.asMachine moves s).2.2.game ∧
    ∀ (w : World G) (e : TraceEvent), w.board.get? Keys.traceLog = none →
      (w.emit e).board = w.board := by
  have hlevel := Coupling.level_unwatched (G := G)
  have hnodes : Coupling.unwatched.Nodes t.root t'.root :=
    (Coupling.nodes_iff_alike hlevel).mpr ⟨halike.root, hdiscreet⟩
  have hstart : Unwatched (t, s) (t', s') :=
    ⟨⟨hnodes, halike.board, halike.last, halike.ticks, trivial⟩, hgame⟩
  have hall : List.Forall₂ (fun move move' : Move G => move = move' ∧ move.Discreet) moves moves :=
    List.forall₂_same.mpr fun move hmove => ⟨rfl, hmoves move hmove⟩
  -- each move is made on both sides
  have hstep : ∀ (move move' : Move G) (r r' : Tree (Node G) × Stage G),
      move = move' ∧ move.Discreet → Unwatched r r' →
      (make Node.asMachine move' r').1 = (make Node.asMachine move r).1 ∧
        Unwatched (make Node.asMachine move r).2 (make Node.asMachine move' r').2 := by
    rintro move _ r r' ⟨rfl, hmove⟩ hr
    exact hr.make hmove
  obtain ⟨hstatuses, ⟨hroot, hboard, hlast, hticks, -⟩, hend⟩ :=
    runSteps_together hstep hall hstart
  have hroot := ((Coupling.nodes_iff_alike hlevel).mp hroot).1
  exact ⟨hstatuses, ⟨hroot, hboard, hlast, hticks⟩, hend,
    fun w e hlog => World.board_emit_of_no_log hlog e⟩

/-- A wolf that bites, with and without a log and a receiver. -/
theorem run_unwatched_bite :
    let r : Repertoire (Node Unit) Unit := .ofPatterns "wolf"
      [{ name := "bite", tree := { root := .wait (.ofMillis 5) } }]
    let t : Tree (Node Unit) := { root := .patternsOf "wolf" r }
    let board := (Blackboard.empty.set Keys.traceLog .empty).set Keys.traceStream (.receiver 0)
    let moves : List (Move Unit) := [.tick (.atMillis 0), .reset, .tick (.atMillis 5)]
    t.Alike { t with board, warns := false } ∧ t.root.Everywhere Node.Discreet ∧
    (∀ move ∈ moves, move.Discreet) ∧
    (Tree.run Node.asMachine moves { t with board, warns := false } { game := () }).1 =
      [.running, .running] := by
  intro r t board moves
  have hdiscreet : t.root.Everywhere Node.Discreet := by
    refine ⟨fun _ => trivial, fun c hc => ?_⟩
    obtain rfl : c = .wait (.ofMillis 5) := List.mem_singleton.mp hc
    exact ⟨trivial, fun _ h => nomatch h⟩
  have hboard : t.board.Alike board :=
    ((Blackboard.Alike.refl _).install (.inl rfl) _).install (.inr rfl) _
  have hmoves : ∀ move ∈ moves, move.Discreet := by
    simp [moves, Move.Discreet]
  have halike := alike_watched hdiscreet hboard false
  refine ⟨halike, hdiscreet, hmoves, ?_⟩
  rw [(run_unwatched halike hdiscreet hmoves rfl).1]
  decide +kernel

end Tree

end Instinct
