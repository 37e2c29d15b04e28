import Instinct.Proofs.Coupling.Exact

/-! # Who tells of a lost pattern

A tick of a tree may tell messages and a failing root. Only a leaf that drives patterns tells of a
pattern that is gone, so a tree without such leaves never does.

* **`Node.Patternless n`** — a node that drives no patterns.
* **`Node.patternless_tick`** — a tick puts no such leaf anywhere.
* **`Stage.NoMoreLost s s'`** — whatever was told of lost patterns by `s'` was told by `s` already.
* **`Tree.noMoreLost_tick`**, **`Pattern.noMoreLost_tick`** — a tick of a tree without leaves that
  drive patterns. -/

namespace Instinct

variable {G : Type}

/-- **A node that drives no patterns.** -/
def Node.Patternless : Node G → Prop
  | .patterns _ _ => False
  | _ => True

/-- A message is no news of a lost pattern. -/
theorem Notice.message_ne_patternLost (level : Level) (text : String) (tick : UInt64)
    (e : PatternError) : Notice.message level text tick ≠ .patternLost e := Notice.noConfusion

/-- **No pattern was lost in between**: what `s'` tells of lost patterns `s` told already. -/
def Stage.NoMoreLost (s s' : Stage G) : Prop :=
  ∀ e, Notice.patternLost e ∈ s'.notices → Notice.patternLost e ∈ s.notices

namespace Stage.NoMoreLost

variable {s s' s'' : Stage G}

/-- Nothing was lost in no time. -/
theorem refl (s : Stage G) : s.NoMoreLost s := fun _ h => h

/-- One time after another. -/
theorem trans (h : s.NoMoreLost s') (h' : s'.NoMoreLost s'') : s.NoMoreLost s'' :=
  fun e he => h e (h' e he)

/-- What becomes of the game is no notice. -/
theorem mapGame (h : s.NoMoreLost s') (f : G → G) : s.NoMoreLost (s'.mapGame f) := h

/-- A notice of another sort tells of no lost pattern. -/
theorem notify (h : s.NoMoreLost s') {n : Notice} (hn : ∀ e, n ≠ .patternLost e) :
    s.NoMoreLost (s'.notify n) := by
  intro e he
  rcases Array.mem_push.mp he with he | he
  · exact h e he
  · exact absurd he.symm (hn e)

/-- An event that is recorded tells of none. -/
theorem emit (w : World G) (h : s.NoMoreLost w.stage) (e : TraceEvent) :
    s.NoMoreLost (w.emit e).stage := by
  -- a streamed event is no notice
  have hstream : ∀ receiver, (w.stage.stream receiver e).notices = w.stage.notices := by
    intro receiver
    cases receiver <;> rfl
  unfold World.emit
  dsimp only
  split
  · intro e he
    rw [hstream] at he
    exact h e he
  · exact h

end Stage.NoMoreLost

/-- **A run beside itself** in which no pattern is lost after the stage `s`. -/
def Coupling.lossless (s : Stage G) : Coupling G where
  delay := 0
  seeded := True
  slots _ := True
  boards b b' := b = b'
  stages r r' := r = r' ∧ s.NoMoreLost r
  tells n := ∀ e, n ≠ .patternLost e
  flags b b' := b' = b
  game_eq h := by rw [h.1]
  mapGame h f := ⟨by rw [h.1], h.2.mapGame f⟩
  notify h _ hn := ⟨by rw [h.1], h.2.notify hn⟩
  warn {r r'} h {b b'} hb root tick := by
    obtain ⟨rfl, hr⟩ := h
    refine ⟨by rw [hb], ?_⟩
    -- what a failing root is told by is no notice of a lost pattern
    cases b with
    | true => exact hr.notify fun _ => Notice.noConfusion
    | false => exact hr
  emit {w w'} hb hs e := by
    obtain ⟨b, r⟩ := w
    obtain ⟨b', r'⟩ := w'
    obtain ⟨hs, hr⟩ := hs
    dsimp only at hb hs hr
    subst hb hs
    exact ⟨rfl, rfl, Stage.NoMoreLost.emit ⟨b, r⟩ hr e⟩
  tells_message level text tick e := Notice.message_ne_patternLost level text tick e
  put h name _ v := Coupling.put_of_eq h name v
  removeName h name _ := Coupling.removeName_of_eq h name
  handles h := Coupling.handles_of_eq h
  slots_handles := Coupling.slots_of_all

namespace Coupling

variable (s : Stage G)

/-- Both runs are at the same time and draw alike. -/
theorem level_lossless : (lossless s).Level := ⟨rfl, trivial⟩

/-- **Only a leaf that drives patterns** can tell of a lost one: the blind nodes are the others. -/
theorem blind_lossless_iff {n : Node G} : (lossless s).Blind n ↔ n.Patternless := by
  constructor
  · intro h
    cases n with
    | patterns title sel => exact h default default rfl
    | _ => exact trivial
  · intro h
    refine blind_of_boards_eq (level_lossless s) (fun _ _ => Iff.rfl) (fun _ => trivial) ?_
    rintro title sel rfl
    exact h.elim

/-- A node without leaves that drive patterns runs beside itself. -/
theorem nodes_lossless_iff {n : Node G} :
    (lossless s).Nodes n n ↔ n.Everywhere Node.Patternless := by
  rw [nodes_iff_alike (level_lossless s)]
  constructor
  · rintro ⟨-, hblind⟩
    exact hblind.mono fun _ => (blind_lossless_iff s).mp
  · intro h
    have hblind := h.mono fun _ => (blind_lossless_iff s).mpr
    exact ⟨alike_self (level_lossless s) (fun _ => rfl) (fun _ => rfl) hblind, hblind⟩

/-- A frame goes with itself. -/
theorem frames_lossless (f : Frame) : (lossless s).Frames f f :=
  (level_lossless s).frames_iff.mpr rfl

end Coupling

/-- **A tick puts no leaf that drives patterns anywhere.** -/
theorem Node.patternless_tick {n : Node G} (h : n.Everywhere Patternless) (f : Frame)
    (w : World G) : (n.tick f w).node.Everywhere Patternless := by
  have hn := (Coupling.nodes_lossless_iff w.stage).mpr h
  have ho := Coupling.steps_nodes.tick (Coupling.frames_lossless w.stage f) hn
    (⟨rfl, rfl, .refl w.stage⟩ : (Coupling.lossless w.stage).Worlds w w)
  exact (Coupling.nodes_lossless_iff w.stage).mp ho.node

/-- **A tree without leaves that drive patterns** tells of no lost pattern. -/
theorem Tree.noMoreLost_tick {t : Tree (Node G)} (h : t.root.Everywhere Node.Patternless)
    (f : Frame) (s : Stage G) : s.NoMoreLost (t.tick Node.asMachine f s).2.2 := by
  have htrees : (Coupling.lossless s).Trees (Coupling.lossless s).Nodes t t :=
    ⟨(Coupling.nodes_lossless_iff s).mpr h, rfl, rfl, rfl, rfl⟩
  obtain ⟨-, -, hstage⟩ :=
    Coupling.steps_nodes.tree (Coupling.frames_lossless s f) htrees ⟨rfl, .refl s⟩
  exact hstage.2

/-- **A pattern whose tree drives no patterns** tells of no lost pattern when it is ticked. -/
theorem Pattern.noMoreLost_tick {p : Pattern (Node G) G}
    (h : p.tree.root.Everywhere Node.Patternless) (s : Situation) (stage : Stage G) :
    stage.NoMoreLost (p.tick Node.asMachine s stage).2.2 :=
  Tree.noMoreLost_tick (t := { p.tree with board := p.briefedBoard s }) h _ stage

end Instinct
